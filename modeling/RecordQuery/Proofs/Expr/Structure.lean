import Mathlib.Data.List.Basic
import RecordQuery.Mapping

/-!
# Induction on expressions

* `Expr.induction` : one case for each kind of node, with the property of every argument in the
  cases of calls and constructions;
* `evalAll_eq_mapM`, `paramsAll_eq_flatMap` : the functions on argument lists in terms of those on
  expressions;
* `Expr.Part` : one expression occurs in another;
* `exists_mem_freeParams` : the free parameters stand for the references to parameters.
-/

namespace RecordQuery.Expr

/-- Induction on expressions; the arguments of a call or a construction have the property. -/
@[elab_as_elim]
theorem induction {motive : Expr → Prop} (param : ∀ p, motive (.param p))
    (field : ∀ target name ty, motive target → motive (.field target name ty))
    (literal : ∀ value ty, motive (.literal value ty))
    (binary : ∀ op left right, motive left → motive right → motive (.binary op left right))
    (not : ∀ operand, motive operand → motive (.not operand))
    (call : ∀ m target args, motive target → (∀ a ∈ args, motive a) → motive (.call m target args))
    (conditional : ∀ test ifTrue ifFalse ty, motive test → motive ifTrue → motive ifFalse →
      motive (.conditional test ifTrue ifFalse ty))
    (convert : ∀ operand ty, motive operand → motive (.convert operand ty))
    (construct : ∀ shape args, (∀ a ∈ args, motive a) → motive (.construct shape args))
    (e : Expr) : motive e :=
  @Expr.rec motive (fun es => ∀ a ∈ es, motive a) param field literal binary not call conditional
    convert construct (fun _ h => nomatch h) (fun _ _ he hes => List.forall_mem_cons.2 ⟨he, hes⟩) e

/-! ## Argument lists -/

theorem evalAll_eq_mapM (p : Param) (arg : Value) (es : List Expr) :
    evalAll p arg es = es.mapM (eval p arg) := by
  induction es with
  | nil => rfl
  | cons e es ih => rw [evalAll, List.mapM_cons, ih]

theorem paramsAll_eq_flatMap (es : List Expr) : paramsAll es = es.flatMap params := by
  induction es with
  | nil => rfl
  | cons e es ih => rw [paramsAll, List.flatMap_cons, ih]

theorem forall_mem_paramsAll {es : List Expr} {P : Param → Prop} :
    (∀ q ∈ paramsAll es, P q) ↔ ∀ e ∈ es, ∀ q ∈ e.params, P q := by
  rw [paramsAll_eq_flatMap, List.forall_mem_flatMap]

/-! ## Occurrences -/

/-- `Part a e`: the expression `a` occurs in `e`. -/
inductive Part : Expr → Expr → Prop
  | refl (e : Expr) : Part e e
  | field {a target : Expr} {name : String} {ty : Ty} (h : Part a target) :
      Part a (.field target name ty)
  | left {a left right : Expr} {op : BinaryOp} (h : Part a left) : Part a (.binary op left right)
  | right {a left right : Expr} {op : BinaryOp} (h : Part a right) : Part a (.binary op left right)
  | not {a operand : Expr} (h : Part a operand) : Part a (.not operand)
  | target {a target : Expr} {m : Method} {args : List Expr} (h : Part a target) :
      Part a (.call m target args)
  | arg {a e target : Expr} {m : Method} {args : List Expr} (he : e ∈ args) (h : Part a e) :
      Part a (.call m target args)
  | test {a test ifTrue ifFalse : Expr} {ty : Ty} (h : Part a test) :
      Part a (.conditional test ifTrue ifFalse ty)
  | ifTrue {a test ifTrue ifFalse : Expr} {ty : Ty} (h : Part a ifTrue) :
      Part a (.conditional test ifTrue ifFalse ty)
  | ifFalse {a test ifTrue ifFalse : Expr} {ty : Ty} (h : Part a ifFalse) :
      Part a (.conditional test ifTrue ifFalse ty)
  | convert {a operand : Expr} {ty : Ty} (h : Part a operand) : Part a (.convert operand ty)
  | component {a e : Expr} {shape : Shape} {args : List Expr} (he : e ∈ args) (h : Part a e) :
      Part a (.construct shape args)

/-! ## Parameters -/

theorem exists_mem_addParam {ps : List Param} {p q : Param} :
    (∃ r ∈ addParam ps p, r.id = q.id) ↔ (∃ r ∈ ps, r.id = q.id) ∨ p.id = q.id := by
  unfold addParam
  split
  case isTrue h =>
    obtain ⟨r, hr, hrp⟩ := List.any_eq_true.1 h
    constructor
    · exact .inl
    · rintro (h | h)
      · exact h
      · exact ⟨r, hr, (eq_of_beq hrp).trans h⟩
  case isFalse => simp [or_and_right, exists_or]

theorem exists_mem_foldl_addParam {qs ps : List Param} {q : Param} :
    (∃ r ∈ qs.foldl addParam ps, r.id = q.id) ↔ (∃ r ∈ ps, r.id = q.id) ∨ ∃ r ∈ qs, r.id = q.id := by
  induction qs generalizing ps with
  | nil => simp
  | cons p qs ih => rw [List.foldl_cons, ih, exists_mem_addParam, or_assoc]; simp

theorem exists_mem_freeParams {e : Expr} {q : Param} :
    (∃ r ∈ e.freeParams, r.id = q.id) ↔ ∃ r ∈ e.params, r.id = q.id := by
  rw [freeParams, exists_mem_foldl_addParam]
  simp

end RecordQuery.Expr

namespace RecordQuery

theorem Lambda.IsClosed.id_eq {l : Lambda} (h : l.IsClosed) {q : Param} (hq : q ∈ l.body.params) :
    q.id = l.param.id := by
  obtain ⟨r, hr, hrq⟩ := Expr.exists_mem_freeParams.2 ⟨q, hq, rfl⟩
  rw [← hrq, h r hr]

end RecordQuery
