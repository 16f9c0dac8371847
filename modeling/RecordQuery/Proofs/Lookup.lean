import Mathlib.Data.List.Nodup

/-!
# Lists searched by key

* `lookup_cons_eq_ite` : the value of a key in a list with one more pair in front;
* `lookup_of_mem` : the pairs of distinct keys are found;
* `lookup_filter_ne` : pairs of another key can be left out.
-/

namespace RecordQuery

variable {α : Type} {xs : List (String × α)} {name other : String}

theorem lookup_cons_eq_ite (name other : String) (a : α) (xs : List (String × α)) :
    ((name, a) :: xs).lookup other = if other = name then some a else xs.lookup other := by
  by_cases h : other = name
  · rw [if_pos h, h, List.lookup_cons_self]
  · rw [if_neg h, List.lookup_cons, beq_eq_false_iff_ne.2 h]

theorem lookup_of_mem (h : (xs.map Prod.fst).Nodup) {x : String × α} (hx : x ∈ xs) :
    xs.lookup x.1 = some x.2 := by
  induction xs with
  | nil => cases hx
  | cons y ys ih =>
    rw [List.map_cons, List.nodup_cons] at h
    rw [lookup_cons_eq_ite]
    rcases List.mem_cons.1 hx with rfl | hx
    · exact if_pos rfl
    · have hne : x.1 ≠ y.1 := fun heq => h.1 (heq ▸ List.mem_map_of_mem hx)
      rw [if_neg hne]
      exact ih h.2 hx

theorem lookup_filter_ne (h : other ≠ name) (xs : List (String × α)) :
    (xs.filter (·.1 != name)).lookup other = xs.lookup other := by
  induction xs with
  | nil => rfl
  | cons x xs ih =>
    rw [List.filter_cons, lookup_cons_eq_ite]
    split
    · rw [lookup_cons_eq_ite, ih]
    · rename_i hx
      have hxn : x.1 = name := by simpa using hx
      rw [ih, if_neg (hxn ▸ h)]

end RecordQuery
