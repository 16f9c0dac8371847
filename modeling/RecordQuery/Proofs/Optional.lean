import Mathlib.Data.List.Forall2
import Mathlib.Data.List.Perm.Basic
import Mathlib.Data.Option.Basic

/-!
# Computations that may have no result

* `mapM_eq_some` : a list of computations has results when each of them has one;
* `rel_bind`, `rel_mapM` : two computations have related results, or neither has one;
* `rel_mapM_of_perm` : the results of a list of computations in another order.
-/

namespace RecordQuery

variable {α β α' β' : Type} {R : α → β → Prop} {S : α' → β' → Prop}

theorem mapM_eq_some {f : α → Option β} {xs : List α} {ys : List β} :
    xs.mapM f = some ys ↔ List.Forall₂ (fun x y => f x = some y) xs ys := by
  induction xs generalizing ys with
  | nil => simp [eq_comm]
  | cons x xs ih =>
    simp only [List.mapM_cons, Option.bind_eq_bind, Option.bind_eq_some_iff,
      List.forall₂_cons_left_iff, ih]
    constructor
    · rintro ⟨y, hy, ys, hys, h⟩
      exact ⟨y, ys, hy, hys, (Option.some.inj h).symm⟩
    · rintro ⟨y, ys, hy, hys, rfl⟩
      exact ⟨y, hy, ys, hys, rfl⟩

theorem rel_bind {x : Option α} {y : Option β} {f : α → Option α'} {g : β → Option β'}
    (h : Option.Rel R x y) (hf : ∀ a b, R a b → Option.Rel S (f a) (g b)) :
    Option.Rel S (x >>= f) (y >>= g) := by
  cases h with
  | none => exact .none
  | some h => exact hf _ _ h

theorem rel_mapM {f : α → Option α'} {g : β → Option β'} {xs : List α} {ys : List β}
    (h : List.Forall₂ R xs ys) (hf : ∀ a b, R a b → Option.Rel S (f a) (g b)) :
    Option.Rel (List.Forall₂ S) (xs.mapM f) (ys.mapM g) := by
  induction h with
  | nil => exact .some .nil
  | cons hab _ ih =>
    rw [List.mapM_cons, List.mapM_cons]
    refine rel_bind (hf _ _ hab) fun c d hcd => ?_
    exact rel_bind ih fun cs ds hcds => .some (.cons hcd hcds)

/-- A list of computations in another order has the results in another order. -/
theorem rel_mapM_of_perm {f : α → Option β} {xs ys : List α} (h : xs.Perm ys) :
    Option.Rel List.Perm (xs.mapM f) (ys.mapM f) := by
  have hsome {xs ys : List α} {as : List β} (h : xs.Perm ys) (has : xs.mapM f = some as) :
      ∃ bs, ys.mapM f = some bs ∧ bs.Perm as := by
    obtain ⟨bs, hbs, hperm⟩ := List.perm_comp_forall₂ h.symm (mapM_eq_some.1 has)
    exact ⟨bs, mapM_eq_some.2 hbs, hperm⟩
  cases hxs : xs.mapM f with
  | some as =>
    obtain ⟨bs, hbs, hperm⟩ := hsome h hxs
    rw [hbs]
    exact .some hperm.symm
  | none =>
    cases hys : ys.mapM f with
    | none => exact .none
    | some bs =>
      obtain ⟨as, has, -⟩ := hsome h.symm hys
      rw [hxs] at has
      cases has

end RecordQuery
