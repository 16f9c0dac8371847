import RecordQuery.Proofs.Expr.Typing

/-!
# Expressions over two parameters

The checked constructors look at the types of their operands only, so the number and the name of the
root parameter do not matter to them.

* `Expr.Alike p q e e'` : `e` over the parameter `p` and `e'` over `q` have one type, and one value for
  each argument;
* `Alike.mkBinary`, …, `Alike.fold`, `Alike.resolve` : operands that are alike are refused with one
  error, or make expressions that are alike.
-/

namespace RecordQuery.Expr

/-- The expressions have the same type, and for each argument the same value or the same error. -/
structure Alike (p q : Param) (e e' : Expr) : Prop where
  ty : e'.ty = e.ty
  eval (arg : Value) : e'.eval q arg = e.eval p arg

namespace Alike
variable {p q : Param} {e e' left left' right right' : Expr}

theorem param (h : q.ty = p.ty) : Alike p q (.param p) (.param q) :=
  ⟨h, fun arg => by rw [Expr.eval, Expr.eval, if_pos rfl, if_pos rfl]⟩

theorem literal (p q : Param) (value : Value) (ty : Ty) : Alike p q (.literal value ty) (.literal value ty) :=
  ⟨rfl, fun arg => by rw [Expr.eval, Expr.eval]⟩

/-! ## Argument lists -/

theorem map_ty {es es' : List Expr} (h : List.Forall₂ (Alike p q) es es') :
    es'.map Expr.ty = es.map Expr.ty := by
  induction h with
  | nil => rfl
  | cons h _ ih => rw [List.map_cons, List.map_cons, h.ty, ih]

theorem evalAll {es es' : List Expr} (h : List.Forall₂ (Alike p q) es es') (arg : Value) :
    Expr.evalAll q arg es' = Expr.evalAll p arg es := by
  induction h with
  | nil => rfl
  | cons h _ ih => rw [Expr.evalAll, Expr.evalAll, h.eval, ih]

/-! ## The checked constructors -/

theorem mkLiteral (p q : Param) (value : Value) (ty : Ty) :
    Matches (Alike p q) (mkLiteral value ty) (mkLiteral value ty) := by
  unfold Expr.mkLiteral
  split
  · exact .ok (literal p q value ty)
  · exact .error _

theorem mkBinary {op : BinaryOp} (hleft : Alike p q left left') (hright : Alike p q right right') :
    Matches (Alike p q) (mkBinary op left right) (mkBinary op left' right') := by
  unfold Expr.mkBinary
  rw [hleft.ty, hright.ty]
  split
  · exact .ok ⟨rfl, fun arg => by rw [Expr.eval, Expr.eval, hleft.eval, hright.eval]⟩
  · exact .error _

theorem mkNot (h : Alike p q e e') : Matches (Alike p q) (mkNot e) (mkNot e') := by
  unfold Expr.mkNot
  rw [h.ty]
  split
  · exact .ok ⟨rfl, fun arg => by rw [Expr.eval, Expr.eval, h.eval]⟩
  · exact .error _

theorem mkCall {m : Method} {es es' : List Expr} (h : Alike p q e e')
    (hargs : List.Forall₂ (Alike p q) es es') :
    Matches (Alike p q) (mkCall m e es) (mkCall m e' es') := by
  have htexts : es'.map (fun a => a.ty.text) = es.map fun a => a.ty.text := by
    show es'.map (Ty.text ∘ Expr.ty) = es.map (Ty.text ∘ Expr.ty)
    rw [← List.map_map, map_ty hargs, List.map_map]
  unfold Expr.mkCall
  rw [h.ty, map_ty hargs, htexts]
  split
  · refine .ok ⟨by cases m <;> rfl, fun arg => ?_⟩
    rw [Expr.eval, Expr.eval, h.eval, evalAll hargs]
  · exact .error _

theorem checkArgs {es es' : List Expr} (h : List.Forall₂ (Alike p q) es es') (fields : List Field) :
    Expr.checkArgs fields es' = Expr.checkArgs fields es := by
  induction h generalizing fields with
  | nil => rfl
  | cons h _ ih =>
    cases fields with
    | nil => rfl
    | cons f fields => rw [Expr.checkArgs, Expr.checkArgs, h.ty, ih]

theorem mkConstruct {es es' : List Expr} (shape : Shape) (h : List.Forall₂ (Alike p q) es es') :
    Matches (Alike p q) (mkConstruct shape es) (mkConstruct shape es') := by
  unfold Expr.mkConstruct
  rw [h.length_eq, checkArgs h]
  split
  · exact .error _
  · cases Expr.checkArgs shape.fields es with
    | error err => exact .error err
    | ok _ => exact .ok ⟨rfl, fun arg => by rw [Expr.eval, Expr.eval, evalAll h]⟩

theorem fold {op : BinaryOp} {es es' : List Expr} (h : List.Forall₂ (Alike p q) es es') :
    Matches (Option.Rel (Alike p q)) (fold op es) (fold op es') := by
  cases h with
  | nil => exact .ok .none
  | cons he hes =>
    refine Matches.bind (Matches.foldlM hes he fun _ _ _ _ => mkBinary) fun a b hab => ?_
    exact .ok (.some hab)

theorem getD {x x' : Option Expr} (h : Option.Rel (Alike p q) x x') (value : Value) (ty : Ty) :
    Alike p q (x.getD (.literal value ty)) (x'.getD (.literal value ty)) := by
  cases h with
  | none => exact .literal p q value ty
  | some h => exact h

/-! ## Paths -/

theorem readSegment {s : Schema} {path segment : String} (h : Alike p q e e') :
    Matches (Alike p q) (readSegment s path e segment) (readSegment s path e' segment) := by
  unfold Expr.readSegment
  rw [h.ty]
  dsimp only
  split
  · exact .error _
  · split
    · exact .error _
    · refine Matches.bind (R := Eq) ?_ fun r r' hr => ?_
      · cases s.record _ with
        | error err => exact .error err
        | ok r => exact .ok rfl
      · subst hr
        split
        · exact .error _
        · exact .ok ⟨rfl, fun arg => by rw [Expr.eval, Expr.eval, h.eval]⟩

theorem resolve {s : Schema} {path : String} (h : Alike p q e e') :
    Matches (Alike p q) (resolve s e path) (resolve s e' path) := by
  refine Matches.foldlM (T := Eq) (List.forall₂_same.2 fun _ _ => rfl) h ?_
  rintro a b segment _ hab rfl
  exact hab.readSegment

end Alike

end RecordQuery.Expr
