import RecordQuery.Proofs.Expr.Typing

/-!
# Soundness of evaluation

A well-typed expression, evaluated with a value of its parameter's type, has a value of its own
type, or one of its nodes raises an error for which no type accounts: null converted to a type
without null, or floats that have no order.

* `Expr.Raises p arg e err` : the node `e` itself raises the error;
* `Expr.Fault p arg e err` : a node in `e` does;
* `Expr.Safe` : the value is of the expression's type, or a node in it raises the error; one lemma for
  each kind of node;
* `WellTyped.safe` : well-typed expressions are safe;
* `invoke_conforms_or_fault` : the same for a function built by the checked constructors.
-/

namespace RecordQuery

def Method.ty : Method → Ty
  | .toText => .string
  | _ => .bool

theorem Expr.ty_call (m : Method) (target : Expr) (args : List Expr) :
    (Expr.call m target args).ty = m.ty := by cases m <;> rfl

def BinaryOp.IsOrdering (op : BinaryOp) : Prop :=
  op = .less ∨ op = .lessOrEqual ∨ op = .greater ∨ op = .greaterOrEqual

/-- Two floats that the operator cannot order, and its error for them. -/
def BinaryOp.Unordered (op : BinaryOp) (left right : Value) (err : Error) : Prop :=
  op.IsOrdering ∧ ∃ x y, left = .float x ∧ right = .float y ∧ left.compare right = none ∧
    err = .evaluation (.unordered left.text right.text)

section Operators
variable {s : Schema}

/-! ## Operators and methods -/

/-- Operands of an orderable type are ordered, unless they are unordered floats. -/
theorem BinaryOp.yields_ordering {op : BinaryOp} {left right : Value} {l r : Ty}
    (hop : op.IsOrdering) (h : op.accepts l r) (hleft : left.Conforms s l)
    (hright : right.Conforms s r) :
    Yields (fun v : Value => v.Conforms s .bool) (op.Unordered left right)
      (op.compare left right) := by
  have hacc : l.equatable r ∧ l.isOrderable := by
    rcases hop with rfl | rfl | rfl | rfl <;> exact Bool.and_eq_true_iff.1 h
  have heval : op.compare left right =
      if left.isNull || right.isNull then .ok (.bool false)
      else (left.compare right).elim (.error (.evaluation (.unordered left.text right.text)))
        fun o => .ok (.bool (op.admits o)) := by
    unfold compare
    rcases hop with rfl | rfl | rfl | rfl <;> cases left.compare right <;> rfl
  have hright' : right.Conforms s l := by
    rw [← Value.conforms_underlying, eq_of_beq hacc.1, Value.conforms_underlying]
    exact hright
  rw [heval]
  split
  · exact .bool false
  · rename_i hnull
    rw [Bool.or_eq_true, not_or] at hnull
    rcases hleft.compare hright' hacc.2 with rfl | rfl | ⟨o, ho⟩ | ⟨x, y, rfl, rfl, hxy⟩
    · exact absurd rfl hnull.1
    · exact absurd rfl hnull.2
    · rw [ho]
      exact .bool (op.admits o)
    · rw [show (Value.float x).compare (.float y) = none from hxy]
      exact ⟨hop, x, y, rfl, rfl, hxy, rfl⟩

theorem BinaryOp.yields_compare {op : BinaryOp} {left right : Value} {l r : Ty}
    (hop : op.decisive? = none) (h : op.accepts l r) (hleft : left.Conforms s l)
    (hright : right.Conforms s r) :
    Yields (fun v : Value => v.Conforms s .bool) (op.Unordered left right)
      (op.compare left right) := by
  cases op with
  | and => cases hop
  | or => cases hop
  | equal => exact .bool _
  | notEqual => exact .bool _
  | _ => exact yields_ordering (by simp [IsOrdering]) h hleft hright

theorem BinaryOp.accepts_decisive {op : BinaryOp} {l r : Ty} {d : Bool} (hop : op.decisive? = some d)
    (h : op.accepts l r) : l.underlying = .bool ∧ r.underlying = .bool := by
  cases op with
  | and => simpa [accepts] using h
  | or => simpa [accepts] using h
  | _ => cases hop

theorem Method.accepts_text {m : Method} {ty : Ty} {tys : List Ty} (hm : m ≠ .toText)
    (hm' : m ≠ .listContains) (h : m.accepts ty tys) :
    ∃ t, tys = [t] ∧ ty.underlying = .string ∧ t.underlying = .string := by
  unfold accepts at h
  split at h
  · contradiction
  · contradiction
  · contradiction
  · rename_i t _ _
    exact ⟨t, rfl, by simpa [Ty.isText] using h⟩
  · cases h

theorem Method.conforms_holds {m : Method} {target arg : Value} (htarget : target.Conforms s .string)
    (harg : arg.Conforms s .string) (hm : m ≠ .toText) (hm' : m ≠ .listContains) :
    ∃ v, m.apply target [arg] = .ok v ∧ v.Conforms s .bool := by
  cases htarget with
  | null => exact ⟨.null, by cases m <;> rfl, .null .bool⟩
  | string t =>
    cases harg with
    | null => exact ⟨.null, by cases m <;> first | rfl | contradiction, .null .bool⟩
    | string u => exact ⟨.bool (m.holds t u), by cases m <;> first | rfl | contradiction, .bool _⟩

theorem Method.conforms_apply {m : Method} {target : Value} {ty : Ty} {tys : List Ty}
    {args : List Value} (h : m.accepts ty tys) (htarget : target.Conforms s ty)
    (hargs : List.Forall₂ (fun t (v : Value) => v.Conforms s t) tys args) :
    ∃ v, m.apply target args = .ok v ∧ v.Conforms s m.ty := by
  cases m with
  | toText =>
    cases target with
    | null => exact ⟨.null, rfl, .null _⟩
    | _ => exact ⟨_, rfl, .string _⟩
  | listContains =>
    cases target with
    | list items => exact ⟨_, rfl, .bool _⟩
    | _ => exact ⟨.null, rfl, .null _⟩
  | startsWith | endsWith | contains | equals =>
    obtain ⟨t, rfl, hty, ht⟩ := accepts_text (by simp) (by simp) h
    obtain ⟨arg, _, harg, hnil, rfl⟩ := List.forall₂_cons_left_iff.1 hargs
    rw [List.forall₂_nil_left_iff.1 hnil]
    exact conforms_holds (htarget.of_underlying_eq hty) (harg.of_underlying_eq ht)
      (by simp) (by simp)

end Operators

/-! ## Expressions -/

namespace Expr

inductive Raises (p : Param) (arg : Value) : Expr → Error → Prop
  | nullConversion {operand : Expr} {ty : Ty} (h : operand.eval p arg = .ok .null)
      (hty : ty.admitsNull = false) :
      Raises p arg (.convert operand ty) (.evaluation (.nullConversion ty.text))
  | unordered {op : BinaryOp} {left right : Expr} {l r : Value} {err : Error}
      (hleft : left.eval p arg = .ok l) (hright : right.eval p arg = .ok r)
      (h : op.Unordered l r err) : Raises p arg (.binary op left right) err

/-- A node in the expression raises the error. -/
def Fault (p : Param) (arg : Value) (e : Expr) (err : Error) : Prop :=
  ∃ a, Part a e ∧ a.Raises p arg err

variable {p : Param} {arg : Value} {s : Schema}

theorem Fault.imp {e e' : Expr} (h : ∀ a, Part a e → Part a e') (err : Error)
    (hf : e.Fault p arg err) : e'.Fault p arg err := by
  obtain ⟨a, ha, hr⟩ := hf
  exact ⟨a, h a ha, hr⟩

/-- What the value and the error of an expression can be, for the parameter's value at hand. -/
abbrev Safe (s : Schema) (p : Param) (arg : Value) (e whole : Expr) : Prop :=
  Yields (fun v : Value => v.Conforms s e.ty) (whole.Fault p arg) (e.eval p arg)

theorem Safe.within {e whole : Expr} (h : Safe s p arg e e) (hpart : ∀ a, Part a e → Part a whole) :
    Safe s p arg e whole :=
  h.mono (fun _ hv => hv) (Fault.imp hpart)

theorem Safe.evalAll {es : List Expr} {whole : Expr} (h : ∀ e ∈ es, Safe s p arg e e)
    (hpart : ∀ e ∈ es, ∀ a, Part a e → Part a whole) :
    Yields (List.Forall₂ (fun t (v : Value) => v.Conforms s t) (es.map ty)) (whole.Fault p arg)
      (evalAll p arg es) := by
  rw [evalAll_eq_mapM]
  refine (Yields.mapM (T := fun e (v : Value) => v.Conforms s e.ty) fun e he =>
    (h e he).within (hpart e he)).mono (fun vs hvs => ?_) fun _ herr => herr
  exact List.forall₂_map_left_iff.2 hvs

theorem Safe.field {target : Expr} {name : String} {r : RecordType} {f : Field}
    (hname : target.ty.recordName? = some name) (hr : s.record? name = some r)
    (hf : r.field? f.name = some f) (h : Safe s p arg target target) :
    Safe s p arg (.field target f.name f.ty) (.field target f.name f.ty) := by
  have hty : target.ty.underlying = .record name := Ty.underlying_of_recordName hname
  rw [Safe, eval]
  refine (h.within fun _ => .field).bind fun v _ hv => .of_ok ?_
  exact (hv.of_underlying_eq hty).readField hr (List.mem_of_find?_eq_some hf)

theorem Safe.binary {op : BinaryOp} {left right : Expr} (hop : op.accepts left.ty right.ty)
    (hl : Safe s p arg left left) (hr : Safe s p arg right right) :
    Safe s p arg (.binary op left right) (.binary op left right) := by
  have hl' : Safe s p arg left (.binary op left right) := hl.within fun _ => .left
  have hr' : Safe s p arg right (.binary op left right) := hr.within fun _ => .right
  rw [Safe, eval]
  refine hl'.bind fun l hleft hl => ?_
  cases hd : op.decisive? with
  | some d =>
    obtain ⟨htl, htr⟩ := BinaryOp.accepts_decisive hd hop
    obtain ⟨a, ha⟩ := (hl.of_underlying_eq htl).truth
    simp only [ha, ok_bind]
    split
    · exact .bool d
    · refine hr'.bind fun r _ hr => ?_
      obtain ⟨b, hb⟩ := (hr.of_underlying_eq htr).truth
      rw [hb, ok_bind]
      exact Value.conforms_ofTruth _
  | none =>
    refine hr'.bind fun r hright hr => ?_
    refine (BinaryOp.yields_compare hd hop hl hr).mono (fun _ h => h) fun err herr => ?_
    exact ⟨_, .refl _, .unordered hleft hright herr⟩

theorem Safe.not {operand : Expr} (hbool : operand.ty.underlying = .bool)
    (h : Safe s p arg operand operand) : Safe s p arg (.not operand) (.not operand) := by
  rw [Safe, eval]
  refine (h.within fun _ => .not).bind fun v _ hv => ?_
  obtain ⟨t, ht⟩ := (hv.of_underlying_eq hbool).truth
  rw [ht, ok_bind]
  exact Value.conforms_ofTruth _

theorem Safe.call {m : Method} {target : Expr} {args : List Expr}
    (hm : m.accepts target.ty (args.map ty)) (ht : Safe s p arg target target)
    (ha : ∀ a ∈ args, Safe s p arg a a) :
    Safe s p arg (.call m target args) (.call m target args) := by
  rw [Safe, eval, ty_call]
  refine (ht.within fun _ => .target).bind fun v _ hv => ?_
  refine (Safe.evalAll ha fun a h _ => .arg h).bind fun vs _ hvs => .of_ok ?_
  exact Method.conforms_apply hm hv hvs

theorem equatable_branches {a b : Ty} (h : a.equatable b) :
    a.equatable (if b.isNullable then b else a) ∧ b.equatable (if b.isNullable then b else a) := by
  split
  · exact ⟨h, beq_self_eq_true _⟩
  · exact ⟨beq_self_eq_true _, BEq.symm h⟩

theorem Safe.conditional {test ifTrue ifFalse : Expr} (hbool : test.ty.underlying = .bool)
    (heq : ifTrue.ty.equatable ifFalse.ty) (ht : Safe s p arg test test)
    (h1 : Safe s p arg ifTrue ifTrue) (h2 : Safe s p arg ifFalse ifFalse) :
    Safe s p arg
      (.conditional test ifTrue ifFalse (if ifFalse.ty.isNullable then ifFalse.ty else ifTrue.ty))
      (.conditional test ifTrue ifFalse
        (if ifFalse.ty.isNullable then ifFalse.ty else ifTrue.ty)) := by
  obtain ⟨hty1, hty2⟩ := equatable_branches heq
  generalize (if ifFalse.ty.isNullable then ifFalse.ty else ifTrue.ty) = ty at hty1 hty2 ⊢
  rw [Safe, eval]
  refine (ht.within fun _ => .test).bind fun v _ hv => ?_
  obtain ⟨t, ht⟩ := (hv.of_underlying_eq hbool).truth
  rw [ht, ok_bind]
  split
  · exact (h1.within fun _ => .ifTrue).mono (fun w hw => hw.of_equatable hty1) fun _ herr => herr
  · exact (h2.within fun _ => .ifFalse).mono (fun w hw => hw.of_equatable hty2) fun _ herr => herr

theorem Safe.convert {operand : Expr} {ty : Ty} (heq : operand.ty.equatable ty)
    (h : Safe s p arg operand operand) :
    Safe s p arg (.convert operand ty) (.convert operand ty) := by
  rw [Safe, eval]
  refine (h.within fun _ => .convert).bind fun v hv hconf => ?_
  split
  · rename_i hnull
    rw [Bool.and_eq_true, Bool.not_eq_true'] at hnull
    have hv' : v = .null := by cases v <;> first | rfl | cases hnull.1
    exact ⟨_, .refl _, .nullConversion (hv' ▸ hv) hnull.2⟩
  · exact hconf.of_equatable heq

theorem Safe.construct {shape : Shape} {args : List Expr}
    (htys : args.map ty = shape.fields.map Field.ty) (ha : ∀ a ∈ args, Safe s p arg a a) :
    Safe s p arg (.construct shape args) (.construct shape args) := by
  rw [Safe, eval]
  refine (Safe.evalAll ha fun a h _ => .component h).bind fun vs _ hvs => .of_ok ?_
  rw [htys, List.forall₂_map_left_iff] at hvs
  exact shape.conforms_construct hvs

/-- **A well-typed expression has a value of its type, or a node in it raises the error.** -/
theorem WellTyped.safe {e : Expr} (h : e.WellTyped s)
    (hp : ∀ q ∈ e.params, q.id = p.id ∧ q.ty = p.ty) (harg : arg.Conforms s p.ty) :
    Safe s p arg e e := by
  induction h with
  | param q =>
    obtain ⟨hid, hty⟩ := hp q (List.mem_singleton_self q)
    rw [Safe, eval, if_pos hid]
    exact (hty ▸ harg : arg.Conforms s q.ty)
  | field _ hname hr hf ih => exact .field hname hr hf (ih hp)
  | literal _ hvalue => exact hvalue
  | binary _ _ hop ihl ihr =>
    rw [params, List.forall_mem_append] at hp
    exact .binary hop (ihl hp.1) (ihr hp.2)
  | not _ hbool ih => exact .not hbool (ih hp)
  | call _ _ hm iht iha =>
    rw [params, List.forall_mem_append, forall_mem_paramsAll] at hp
    exact .call hm (iht hp.1) fun a ha => iha a ha (hp.2 a ha)
  | conditional _ _ _ hbool heq iht ih1 ih2 =>
    rw [params, List.forall_mem_append, List.forall_mem_append] at hp
    exact .conditional hbool heq (iht hp.1.1) (ih1 hp.1.2) (ih2 hp.2)
  | convert _ heq ih => exact .convert heq (ih hp)
  | construct _ htys iha =>
    rw [params, forall_mem_paramsAll] at hp
    exact .construct htys fun a ha => iha a ha (hp a ha)

/-- References to the parameter carry its type; parameters made one after the other have different
numbers, so they do. -/
def Consistent (p : Param) (e : Expr) : Prop := ∀ q ∈ e.params, q.id = p.id → q.ty = p.ty

end Expr

/-- **Soundness of evaluation.** A closed function that the checked constructors make, applied to a
value of its parameter's type, gives a value of its result type, unless a node in its body raises an
error: null converted to a type without null, or floats that have no order. -/
theorem Lambda.invoke_conforms_or_fault (s : Schema) (l : Lambda) (arg : Value)
    (hbuilt : l.body.Built s) (hclosed : l.IsClosed) (hconsistent : l.body.Consistent l.param)
    (harg : arg.Conforms s l.param.ty) :
    (∃ v, l.invoke arg = .ok v ∧ v.Conforms s l.body.ty) ∨
      ∃ err, l.invoke arg = .error err ∧ l.body.Fault l.param arg err := by
  have hp : ∀ q ∈ l.body.params, q.id = l.param.id ∧ q.ty = l.param.ty := fun q hq =>
    ⟨hclosed.id_eq hq, hconsistent q hq (hclosed.id_eq hq)⟩
  exact Yields.iff.1 (hbuilt.wellTyped.safe hp harg)

/-! ## A function of persons -/

/-- Two record types that refer to each other. -/
def people : Schema :=
  ⟨[⟨"Person", [⟨"Age", .nullable .int⟩, ⟨"Card", .nullable (.record "Card")⟩]⟩,
    ⟨"Card", [⟨"Owner", .record "Person"⟩, ⟨"Limit", .float⟩]⟩], []⟩

def person : Param := ⟨1, "x", .record "Person"⟩

def ageOf : Expr := .field (.param person) "Age" (.nullable .int)

def ageOfOwner : Expr :=
  .field (.field (.field (.param person) "Card" (.nullable (.record "Card"))) "Owner"
    (.record "Person")) "Age" (.nullable .int)

/-- The written form is `x => ((x.Card.Owner.Age >= 18) ? (int)x.Age : 0)`. -/
def ageIfGrown : Lambda :=
  ⟨person, .conditional (.binary .greaterOrEqual ageOfOwner (.literal (.int 18) .int))
    (.convert ageOf .int) (.literal (.int 0) .int) .int⟩

theorem ageIfGrown_built : ageIfGrown.body.Built people := by
  have howner : ageOfOwner.Built people :=
    .path (.param person) (show Expr.resolve people (.param person) "Card.Owner.Age" = _ from rfl)
  have hage : ageOf.Built people :=
    .path (.param person) (show Expr.resolve people (.param person) "Age" = _ from rfl)
  have h18 : (Expr.literal (.int 18) .int).Built people := .literal (.int 18) rfl
  have h0 : (Expr.literal (.int 0) .int).Built people := .literal (.int 0) rfl
  have htest : (Expr.binary .greaterOrEqual ageOfOwner (.literal (.int 18) .int)).Built people :=
    .binary howner h18 (show Expr.mkBinary .greaterOrEqual ageOfOwner _ = _ from rfl)
  have htrue : (Expr.convert ageOf .int).Built people :=
    .convert hage (show Expr.mkConvert ageOf .int = _ from rfl)
  exact .conditional htest htrue h0 rfl

theorem ageIfGrown_closed : ageIfGrown.IsClosed := by
  unfold Lambda.IsClosed
  decide

/-- A person of unknown age with the card of a person of age 30. -/
def guest : Value :=
  .record [("Card", .record [("Owner", .record [("Age", .int 30)]), ("Limit", .float .nan)])]

theorem guest_conforms : guest.Conforms people (.record "Person") := by
  have howner : (Value.record [("Age", .int 30)]).Conforms people (.record "Person") :=
    Value.conforms_record rfl (by simp [Value.get?]; exact ⟨.nullable (.int 30), .null _⟩)
  have hcard : (Value.record [("Owner", .record [("Age", .int 30)]), ("Limit", .float .nan)]).Conforms
      people (.record "Card") :=
    Value.conforms_record rfl (by simp [Value.get?]; exact ⟨howner, .float _⟩)
  exact Value.conforms_record rfl (by simp [Value.get?]; exact ⟨.null _, .nullable hcard⟩)

theorem ageIfGrown_guest :
    (ageIfGrown.body.Built people ∧ ageIfGrown.IsClosed ∧ ageIfGrown.body.Consistent person ∧
      guest.Conforms people (.record "Person")) ∧
    ((∃ v, ageIfGrown.invoke guest = .ok v ∧ v.Conforms people .int) ∨
      ∃ err, ageIfGrown.invoke guest = .error err ∧ ageIfGrown.body.Fault person guest err) := by
  have hconsistent : ageIfGrown.body.Consistent person := by unfold Expr.Consistent; decide
  exact ⟨⟨ageIfGrown_built, ageIfGrown_closed, hconsistent, guest_conforms⟩,
    Lambda.invoke_conforms_or_fault people ageIfGrown guest ageIfGrown_built ageIfGrown_closed
      hconsistent guest_conforms⟩

end RecordQuery
