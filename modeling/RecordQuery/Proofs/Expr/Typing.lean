import RecordQuery.Proofs.Expr.Structure
import RecordQuery.Proofs.Value.Conformance

/-!
# Well-typed expressions

* `mkLiteral_eq_ok`, …, `mkConstruct_eq_ok`, `readSegment_eq_ok` : what each checked constructor
  accepts, and what it makes;
* `Expr.Built s e` : the checked constructors and the resolver of paths make `e`, with literals that
  belong to their types;
* `Expr.WellTyped s e` : every node of `e` has operands that its constructor accepts;
* `Built.wellTyped` : the first implies the second.
-/

namespace RecordQuery.Expr

/-! ## The checked constructors -/

theorem mkLiteral_eq_ok {value : Value} {ty : Ty} {e : Expr} :
    mkLiteral value ty = .ok e ↔ value.fits ty ∧ e = .literal value ty := by
  unfold mkLiteral
  exact ite_ok_eq_ok

theorem mkBinary_eq_ok {op : BinaryOp} {left right e : Expr} :
    mkBinary op left right = .ok e ↔ op.accepts left.ty right.ty ∧ e = .binary op left right := by
  unfold mkBinary
  exact ite_ok_eq_ok

theorem mkNot_eq_ok {operand e : Expr} :
    mkNot operand = .ok e ↔ operand.ty.underlying = .bool ∧ e = .not operand := by
  unfold mkNot
  exact ite_ok_eq_ok

theorem mkCall_eq_ok {m : Method} {target e : Expr} {args : List Expr} :
    mkCall m target args = .ok e ↔ m.accepts target.ty (args.map ty) ∧ e = .call m target args := by
  unfold mkCall
  exact ite_ok_eq_ok

theorem mkConditional_eq_ok {test ifTrue ifFalse e : Expr} :
    mkConditional test ifTrue ifFalse = .ok e ↔
      (test.ty.underlying = .bool ∧ ifTrue.ty.equatable ifFalse.ty) ∧
        e = .conditional test ifTrue ifFalse
          (if ifFalse.ty.isNullable then ifFalse.ty else ifTrue.ty) := by
  unfold mkConditional
  exact ite_ok_eq_ok

theorem mkConvert_eq_ok {operand e : Expr} {ty : Ty} :
    mkConvert operand ty = .ok e ↔ operand.ty.equatable ty ∧ e = .convert operand ty := by
  unfold mkConvert
  exact ite_ok_eq_ok

theorem checkArgs_eq_ok {fields : List Field} {args : List Expr} (h : args.length = fields.length) :
    checkArgs fields args = .ok () ↔ args.map ty = fields.map Field.ty := by
  induction fields generalizing args with
  | nil =>
    rw [List.length_eq_zero_iff.1 h]
    simp [checkArgs]
  | cons f fields ih =>
    obtain ⟨e, es, rfl⟩ := List.exists_cons_of_length_eq_add_one h
    unfold checkArgs
    split
    case isTrue he => rw [ih (Nat.succ.inj h)]; simp [he]
    case isFalse he => simp [he]

theorem mkConstruct_eq_ok {shape : Shape} {args : List Expr} {e : Expr} :
    mkConstruct shape args = .ok e ↔
      args.map ty = shape.fields.map Field.ty ∧ e = .construct shape args := by
  unfold mkConstruct
  split
  case isTrue h =>
    have hne : args.map ty ≠ shape.fields.map Field.ty := fun heq => h (by
      simpa using congrArg List.length heq)
    simp [hne, throw_eq_error]
  case isFalse h =>
    rw [ne_eq, not_not] at h
    rw [bind_eq_ok, ← checkArgs_eq_ok h]
    constructor
    · rintro ⟨_, hargs, he⟩
      exact ⟨hargs, (Except.ok.inj he).symm⟩
    · rintro ⟨hargs, rfl⟩
      exact ⟨_, hargs, rfl⟩

/-- A segment of a path is read as the first field of its name in the record type reached. -/
theorem readSegment_eq_ok {s : Schema} {path segment : String} {e e' : Expr} :
    readSegment s path e segment = .ok e' ↔
      segment.isEmpty = false ∧ ∃ name, e.ty.recordName? = some name ∧
        ∃ r, s.record? name = some r ∧ ∃ f, r.field? segment = some f ∧
          e' = .field e f.name f.ty := by
  unfold readSegment
  cases segment.isEmpty with
  | true => simp
  | false =>
    cases e.ty.recordName? with
    | none => simp
    | some name =>
      simp only [Schema.record, Option.some.injEq, exists_eq_left']
      cases s.record? name with
      | none => simp
      | some r =>
        simp only [Option.elim_some, ok_bind, Option.some.injEq, exists_eq_left']
        cases r.field? segment <;> simp [eq_comm]

/-! ## Expressions built by them -/

/-- The expression is made by the checked constructors, its literals belong to their types. -/
inductive Built (s : Schema) : Expr → Prop
  | param (p : Param) : Built s (.param p)
  | path {root e : Expr} {path : String} (hroot : Built s root) (h : resolve s root path = .ok e) :
      Built s e
  | literal {value : Value} {ty : Ty} {e : Expr} (hvalue : value.Conforms s ty)
      (h : mkLiteral value ty = .ok e) : Built s e
  | null (ty : Ty) : Built s (.null ty)
  | binary {op : BinaryOp} {left right e : Expr} (hleft : Built s left) (hright : Built s right)
      (h : mkBinary op left right = .ok e) : Built s e
  | not {operand e : Expr} (hoperand : Built s operand) (h : mkNot operand = .ok e) : Built s e
  | call {m : Method} {target e : Expr} {args : List Expr} (htarget : Built s target)
      (hargs : ∀ a ∈ args, Built s a) (h : mkCall m target args = .ok e) : Built s e
  | conditional {test ifTrue ifFalse e : Expr} (htest : Built s test) (htrue : Built s ifTrue)
      (hfalse : Built s ifFalse) (h : mkConditional test ifTrue ifFalse = .ok e) : Built s e
  | convert {operand e : Expr} {ty : Ty} (hoperand : Built s operand)
      (h : mkConvert operand ty = .ok e) : Built s e
  | construct {shape : Shape} {args : List Expr} {e : Expr} (hargs : ∀ a ∈ args, Built s a)
      (h : mkConstruct shape args = .ok e) : Built s e

/-- Every node has operands of the types that it needs. -/
inductive WellTyped (s : Schema) : Expr → Prop
  | param (p : Param) : WellTyped s (.param p)
  | field {target : Expr} {name : String} {r : RecordType} {f : Field} (htarget : WellTyped s target)
      (hname : target.ty.recordName? = some name) (hr : s.record? name = some r)
      (hf : r.field? f.name = some f) : WellTyped s (.field target f.name f.ty)
  | literal {value : Value} {ty : Ty} (hfits : value.fits ty) (hvalue : value.Conforms s ty) :
      WellTyped s (.literal value ty)
  | binary {op : BinaryOp} {left right : Expr} (hleft : WellTyped s left) (hright : WellTyped s right)
      (h : op.accepts left.ty right.ty) : WellTyped s (.binary op left right)
  | not {operand : Expr} (hoperand : WellTyped s operand) (h : operand.ty.underlying = .bool) :
      WellTyped s (.not operand)
  | call {m : Method} {target : Expr} {args : List Expr} (htarget : WellTyped s target)
      (hargs : ∀ a ∈ args, WellTyped s a) (h : m.accepts target.ty (args.map ty)) :
      WellTyped s (.call m target args)
  | conditional {test ifTrue ifFalse : Expr} (htest : WellTyped s test) (htrue : WellTyped s ifTrue)
      (hfalse : WellTyped s ifFalse) (hbool : test.ty.underlying = .bool)
      (h : ifTrue.ty.equatable ifFalse.ty) :
      WellTyped s (.conditional test ifTrue ifFalse
        (if ifFalse.ty.isNullable then ifFalse.ty else ifTrue.ty))
  | convert {operand : Expr} {ty : Ty} (hoperand : WellTyped s operand)
      (h : operand.ty.equatable ty) : WellTyped s (.convert operand ty)
  | construct {shape : Shape} {args : List Expr} (hargs : ∀ a ∈ args, WellTyped s a)
      (h : args.map ty = shape.fields.map Field.ty) : WellTyped s (.construct shape args)

variable {s : Schema}

theorem WellTyped.readSegment {path segment : String} {e e' : Expr} (he : e.WellTyped s)
    (h : readSegment s path e segment = .ok e') : e'.WellTyped s := by
  obtain ⟨-, name, hname, r, hr, f, hf, rfl⟩ := readSegment_eq_ok.1 h
  have hseg : f.name = segment := RecordType.name_of_field? hf
  exact .field he hname hr (hseg ▸ hf)

theorem WellTyped.resolve {path : String} {root e : Expr} (hroot : root.WellTyped s)
    (h : resolve s root path = .ok e) : e.WellTyped s :=
  foldlM_induction hroot (fun _ _ _ _ => WellTyped.readSegment) h

theorem Built.wellTyped {e : Expr} (h : e.Built s) : e.WellTyped s := by
  induction h with
  | param p => exact .param p
  | path _ h ih => exact ih.resolve h
  | literal hvalue h =>
    obtain ⟨hfits, rfl⟩ := mkLiteral_eq_ok.1 h
    exact .literal hfits hvalue
  | null ty => exact .literal (by unfold Value.fits; rfl) (.null ty)
  | binary _ _ h ihl ihr =>
    obtain ⟨hop, rfl⟩ := mkBinary_eq_ok.1 h
    exact .binary ihl ihr hop
  | not _ h ih =>
    obtain ⟨hbool, rfl⟩ := mkNot_eq_ok.1 h
    exact .not ih hbool
  | call _ _ h iht iha =>
    obtain ⟨hm, rfl⟩ := mkCall_eq_ok.1 h
    exact .call iht iha hm
  | conditional _ _ _ h iht ih1 ih2 =>
    obtain ⟨⟨hbool, heq⟩, rfl⟩ := mkConditional_eq_ok.1 h
    exact .conditional iht ih1 ih2 hbool heq
  | convert _ h ih =>
    obtain ⟨heq, rfl⟩ := mkConvert_eq_ok.1 h
    exact .convert ih heq
  | construct _ h iha =>
    obtain ⟨htys, rfl⟩ := mkConstruct_eq_ok.1 h
    exact .construct iha htys

end RecordQuery.Expr
