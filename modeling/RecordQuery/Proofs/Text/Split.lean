import Mathlib.Data.List.Basic
import RecordQuery.Text.Pieces

/-!
# Splitting at one character

* `splitChars_singleton` : splitting at a separator of one character is `List.splitOn`;
* `split_eq_singleton`, `split_append` : the pieces of a text without the separator, and of two texts
  with the separator between them;
* `notMem_of_mem_split` : no piece holds the separator;
* `joined_split` : the pieces with the separator between them are the text.
-/

namespace RecordQuery.Text

variable {c : Char}

theorem consHead_eq_modifyHead {ps : List (List Char)} (h : ps ≠ []) (d : Char) :
    consHead d ps = ps.modifyHead (d :: ·) := by
  cases ps with
  | nil => exact absurd rfl h
  | cons p ps => rfl

theorem splitChars_singleton (c : Char) (cs : List Char) : splitChars [c] cs = cs.splitOn c := by
  induction cs with
  | nil => rfl
  | cons d cs ih =>
    have hstep : splitChars [c] (d :: cs) =
        if c == d then [] :: splitChars [c] cs else consHead d (splitChars [c] cs) := by
      simp [splitChars, splitFrom]
    rw [hstep, ih, List.splitOn_cons_eq_if_modifyHead,
      consHead_eq_modifyHead (List.splitOn_ne_nil c cs), BEq.comm]

theorem split_eq_map_splitOn {s sep : String} (hsep : sep.toList = [c]) :
    split s sep = (s.toList.splitOn c).map .ofList := by
  rw [split, hsep, splitChars_singleton]

theorem split_eq_singleton {s sep : String} (hsep : sep.toList = [c]) (h : c ∉ s.toList) :
    split s sep = [s] := by
  rw [split_eq_map_splitOn hsep, List.splitOn_eq_singleton h, List.map_singleton, String.ofList_toList]

theorem split_append {sep : String} (hsep : sep.toList = [c]) (a b : String) :
    split (a ++ sep ++ b) sep = split a sep ++ split b sep := by
  rw [split_eq_map_splitOn hsep, split_eq_map_splitOn hsep, split_eq_map_splitOn hsep,
    String.toList_append, String.toList_append, hsep, List.append_assoc, List.singleton_append,
    List.splitOn_append_cons_self, List.map_append]

theorem notMem_of_mem_splitOn {cs piece : List Char} (h : piece ∈ cs.splitOn c) : c ∉ piece := by
  induction cs generalizing piece with
  | nil =>
    rw [List.splitOn_nil, List.mem_singleton] at h
    rw [h]
    exact List.not_mem_nil
  | cons d cs ih =>
    rw [List.splitOn_cons_eq_if_modifyHead] at h
    split at h
    · rcases List.mem_cons.1 h with rfl | h
      · exact List.not_mem_nil
      · exact ih h
    · rename_i hd
      obtain ⟨p, ps, hps⟩ := List.exists_cons_of_ne_nil (List.splitOn_ne_nil c cs)
      rw [hps, List.modifyHead_cons] at h
      rw [hps] at ih
      rcases List.mem_cons.1 h with rfl | h
      · rw [List.mem_cons, not_or]
        exact ⟨fun hcd => hd (beq_iff_eq.2 hcd.symm), ih List.mem_cons_self⟩
      · exact ih (List.mem_cons_of_mem p h)

theorem notMem_of_mem_split {s sep piece : String} (hsep : sep.toList = [c])
    (h : piece ∈ split s sep) : c ∉ piece.toList := by
  rw [split_eq_map_splitOn hsep] at h
  obtain ⟨cs, hcs, rfl⟩ := List.mem_map.1 h
  rw [String.toList_ofList]
  exact notMem_of_mem_splitOn hcs

/-! ## Joining -/

theorem joined_append_cons (sep a b : String) (ss : List String) :
    joined sep ((a ++ b) :: ss) = a ++ joined sep (b :: ss) := by
  cases ss with
  | nil => rfl
  | cons s ss => rw [joined, joined, String.append_assoc, String.append_assoc, String.append_assoc]

theorem toList_joined (sep : String) (ss : List String) :
    (joined sep ss).toList = sep.toList.intercalate (ss.map String.toList) := by
  induction ss with
  | nil => rfl
  | cons s ss ih =>
    cases ss with
    | nil => simp [joined]
    | cons t ss =>
      rw [joined, String.toList_append, String.toList_append, ih]
      simp only [List.map_cons, List.intercalate_cons_cons, List.append_assoc]

/-- The pieces of a text with the separator between them are the text. -/
theorem joined_split {sep : String} (hsep : sep.toList = [c]) (s : String) :
    joined sep (split s sep) = s := by
  have hpieces : (split s sep).map String.toList = s.toList.splitOn c := by
    rw [split_eq_map_splitOn hsep, List.map_map]
    simp
  apply String.toList_injective
  rw [toList_joined, hpieces, hsep, List.intercalate_splitOn]

end RecordQuery.Text
