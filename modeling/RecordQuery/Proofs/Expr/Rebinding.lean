import RecordQuery.Proofs.Expr.Structure

/-!
# Rebinding

* `eval_rebind` : an expression with an image in place of its parameter has the value that it has
  when the parameter has the value of the image;
* `params_rebind` : its references to parameters are those of the image, and the others it had;
* `Lambda.eval_applyTo` : a closed function over another parameter has the value of the function.
-/

namespace RecordQuery

namespace Expr

theorem evalAll_rebindAll {es : List Expr} {image : Expr} {p x : Param} {v w : Value}
    (h : ∀ e ∈ es, (rebind p image e).eval x v = e.eval p w) :
    evalAll x v (rebindAll p image es) = evalAll p w es := by
  induction es with
  | nil => rfl
  | cons e es ih =>
    rw [rebindAll, evalAll, evalAll, h e List.mem_cons_self,
      ih fun e' he' => h e' (List.mem_cons_of_mem e he')]

/-- **Rebinding a parameter to an image is binding it to the value of the image.** -/
theorem eval_rebind {e image : Expr} {p x : Param} {v w : Value}
    (hparams : ∀ q ∈ e.params, q.id = p.id) (himage : image.eval x v = .ok w) :
    (rebind p image e).eval x v = e.eval p w := by
  induction e using Expr.induction with
  | param q =>
    have hq : q.id = p.id := hparams q (List.mem_singleton_self q)
    rw [rebind, if_pos hq, eval, if_pos hq, himage]
  | field target name ty ih => rw [rebind, eval, eval, ih hparams]
  | literal value ty => rfl
  | binary op left right ihl ihr =>
    rw [params, List.forall_mem_append] at hparams
    rw [rebind, eval, eval, ihl hparams.1, ihr hparams.2]
  | not operand ih => rw [rebind, eval, eval, ih hparams]
  | call m target args iht iha =>
    rw [params, List.forall_mem_append, forall_mem_paramsAll] at hparams
    have hargs := evalAll_rebindAll fun a ha => iha a ha (hparams.2 a ha)
    rw [rebind, eval, eval, iht hparams.1, hargs]
  | conditional test ifTrue ifFalse ty iht ih1 ih2 =>
    rw [params, List.forall_mem_append, List.forall_mem_append] at hparams
    rw [rebind, eval, eval, iht hparams.1.1, ih1 hparams.1.2, ih2 hparams.2]
  | convert operand ty ih => rw [rebind, eval, eval, ih hparams]
  | construct shape args iha =>
    rw [params, forall_mem_paramsAll] at hparams
    have hargs := evalAll_rebindAll fun a ha => iha a ha (hparams a ha)
    rw [rebind, eval, eval, hargs]

theorem rebindAll_eq_map (p : Param) (image : Expr) (es : List Expr) :
    rebindAll p image es = es.map (rebind p image) := by
  induction es with
  | nil => rfl
  | cons e es ih => rw [rebindAll, List.map_cons, ih]

/-- The references of an expression after rebinding: those of the image for each reference to the
parameter, and the other ones. -/
theorem params_rebind (p : Param) (image e : Expr) : (rebind p image e).params =
    e.params.flatMap fun q => if q.id = p.id then image.params else [q] := by
  have hargs {es : List Expr} (h : ∀ e ∈ es, (rebind p image e).params =
      e.params.flatMap fun q => if q.id = p.id then image.params else [q]) :
      paramsAll (rebindAll p image es) =
        (paramsAll es).flatMap fun q => if q.id = p.id then image.params else [q] := by
    rw [paramsAll_eq_flatMap, paramsAll_eq_flatMap, rebindAll_eq_map, List.flatMap_map,
      List.flatMap_assoc]
    exact List.flatMap_congr h
  induction e using Expr.induction with
  | param q =>
    rw [rebind, params, List.flatMap_singleton]
    split
    · rfl
    · rw [params]
  | field target name ty ih => rw [rebind, params, params, ih]
  | literal value ty => rfl
  | binary op left right ihl ihr =>
    rw [rebind, params, params, List.flatMap_append, ihl, ihr]
  | not operand ih => rw [rebind, params, params, ih]
  | call m target args iht iha =>
    rw [rebind, params, params, List.flatMap_append, iht, hargs iha]
  | conditional test ifTrue ifFalse ty iht ih1 ih2 =>
    rw [rebind, params, params, List.flatMap_append, List.flatMap_append, iht, ih1, ih2]
  | convert operand ty ih => rw [rebind, params, params, ih]
  | construct shape args iha => rw [rebind, params, params, hargs iha]

end Expr

theorem Lambda.eval_applyTo {l : Lambda} (h : l.IsClosed) (root : Param) (v : Value) :
    (l.applyTo root).eval root v = l.invoke v := by
  have hroot : (Expr.param root).eval root v = .ok v := by rw [Expr.eval, if_pos rfl]
  exact Expr.eval_rebind (fun _ hq => h.id_eq hq) hroot

end RecordQuery
