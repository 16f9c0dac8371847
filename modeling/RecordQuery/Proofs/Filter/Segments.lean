import RecordQuery.Filter.Grammar
import RecordQuery.Proofs.Text.Split

/-!
# Writing text filters

A text filter is read back from the segments that were written in quotes, and a pattern from the
segment that asks for it.

* `groups_quoted` : what is in quotes belongs to one group, blanks and the letters `or` too;
* `segments_joined_quoted` : the segments of a text that puts quoted segments between separators;
* `Pattern.segment`, `Pattern.IsWritable` : the segment that asks for a pattern, and the patterns that
  can be written so;
* `Pattern.ofSegment_segment` : a written segment asks for its pattern;
* `patterns_joined_quoted` : the patterns that a text asks for are those that it was written of.
-/

namespace RecordQuery.Filter

/-! ## Segments in quotes -/

variable {cs rest : List Char}

theorem groups_ne_nil (quoted : Bool) (cs : List Char) : groups quoted cs ≠ [] := by
  fun_induction groups quoted cs with
  | case1 | case4 | case5 => exact List.cons_ne_nil _ _
  | case2 _ _ _ _ ih | case3 _ _ _ _ _ ih => exact ih
  | case6 quoted c _ _ d cs _ ih =>
    rw [Text.consHead_eq_modifyHead ih]
    simpa using ih

theorem groups_blank {c : Char} (h : Text.isBlank c) (cs : List Char) :
    groups false (c :: cs) = groups false cs := by
  rw [groups.eq_def]
  simp [h]

theorem groups_quote (quoted : Bool) (cs : List Char) :
    groups quoted ('"' :: cs) = groups (!quoted) cs := by
  have hblank : Text.isBlank '"' = false := by decide
  rw [groups.eq_def]
  simp [hblank]

theorem groups_separator {c d : Char} (h : isSeparator c d) (cs : List Char) :
    groups false (c :: d :: cs) = [] :: groups false cs := by
  have hc : Text.isBlank c = false ∧ c ≠ '"' := by
    unfold isSeparator at h
    simp only [Bool.and_eq_true, Bool.or_eq_true, beq_iff_eq] at h
    rcases h with ⟨rfl | rfl, -⟩ <;> decide
  rw [groups.eq_def]
  simp [hc, h]

theorem groups_kept {c : Char} (hc : c ≠ '"') (hcs : cs ≠ []) :
    groups true (c :: cs) = (groups true cs).modifyHead (c :: ·) := by
  obtain ⟨d, cs, rfl⟩ := List.exists_cons_of_ne_nil hcs
  rw [← Text.consHead_eq_modifyHead (groups_ne_nil true (d :: cs)), groups.eq_def]
  simp [hc]

theorem groups_quoted (h : '"' ∉ cs) :
    groups true (cs ++ '"' :: rest) = (groups false rest).modifyHead (cs ++ ·) := by
  induction cs with
  | nil =>
    rw [List.nil_append, groups_quote]
    exact (congrFun List.modifyHead_id _).symm
  | cons c cs ih =>
    rw [List.mem_cons, not_or] at h
    rw [List.cons_append, groups_kept (Ne.symm h.1) (by simp), ih h.2, List.modifyHead_modifyHead]
    rfl

def inQuotes (segment : String) : String := "\"" ++ segment ++ "\""

theorem groups_inQuotes {s : String} (h : '"' ∉ s.toList) (rest : List Char) :
    groups false ((inQuotes s).toList ++ rest) = (groups false rest).modifyHead (s.toList ++ ·) := by
  have hchars : (inQuotes s).toList ++ rest = '"' :: (s.toList ++ '"' :: rest) := by simp [inQuotes]
  rw [hchars, groups_quote]
  exact groups_quoted h

theorem groups_or (cs : List Char) : groups false (" or ".toList ++ cs) = [] :: groups false cs := by
  show groups false (' ' :: 'o' :: 'r' :: ' ' :: cs) = _
  rw [groups_blank (by decide), groups_separator (by decide), groups_blank (by decide)]

/-- The groups of quoted texts with `or` between them are the texts. -/
theorem groups_joined_quoted {ss : List String} (hss : ss ≠ []) (h : ∀ s ∈ ss, '"' ∉ s.toList) :
    groups false (Text.joined " or " (ss.map inQuotes)).toList = ss.map String.toList := by
  induction ss with
  | nil => exact absurd rfl hss
  | cons s ss ih =>
    obtain ⟨hs, hss⟩ := List.forall_mem_cons.1 h
    cases ss with
    | nil =>
      have hgroups := groups_inQuotes hs []
      rw [List.append_nil, groups, List.modifyHead_cons, List.append_nil] at hgroups
      exact hgroups
    | cons t ss =>
      have hrest := ih (List.cons_ne_nil t ss) hss
      rw [List.map_cons] at hrest
      rw [List.map_cons, List.map_cons, Text.joined, String.toList_append, String.toList_append,
        List.append_assoc, groups_inQuotes hs, groups_or, hrest, List.modifyHead_cons,
        List.append_nil]
      rfl

theorem dropEmptyLast_of_ne {gs : List (List Char)} (h : ∀ g ∈ gs, g ≠ []) : dropEmptyLast gs = gs := by
  unfold dropEmptyLast
  rw [if_neg]
  intro hlast
  exact h [] (List.mem_of_getLast? hlast) rfl

/-- **The segments of a text are those that were written in quotes with `or` between them**, whatever
characters but quotes they hold. -/
theorem segments_joined_quoted {ss : List String} (h : ∀ s ∈ ss, s ≠ "" ∧ '"' ∉ s.toList) :
    segments (Text.joined " or " (ss.map inQuotes)) = ss := by
  cases ss with
  | nil => rfl
  | cons s ss =>
    have hgroups := groups_joined_quoted (List.cons_ne_nil s ss) fun t ht => (h t ht).2
    have hne : ∀ g ∈ (s :: ss).map String.toList, g ≠ [] := by
      intro g hg
      obtain ⟨t, ht, rfl⟩ := List.mem_map.1 hg
      exact fun hnil => (h t ht).1 (String.toList_eq_nil_iff.1 hnil)
    rw [segments, hgroups, dropEmptyLast_of_ne hne, List.map_map]
    simp

/-! ## Patterns -/

namespace Pattern

/-- The segment that asks for the pattern. -/
def segment : Pattern → String
  | .contains needle => "%" ++ needle ++ "%"
  | .startsWith needle => needle ++ "%"
  | .endsWith needle => "%" ++ needle
  | .equals needle => needle

/-- No end of the needle is taken for a wildcard. -/
def IsWritable : Pattern → Prop
  | .contains _ => True
  | .startsWith needle => needle.toList.head? ≠ some '%'
  | .endsWith needle => needle.toList.getLast? ≠ some '%'
  | .equals needle => needle.toList.head? ≠ some '%' ∧ needle.toList.getLast? ≠ some '%'

instance : DecidablePred IsWritable
  | .contains _ => inferInstanceAs (Decidable True)
  | .startsWith needle => inferInstanceAs (Decidable (needle.toList.head? ≠ some '%'))
  | .endsWith needle => inferInstanceAs (Decidable (needle.toList.getLast? ≠ some '%'))
  | .equals needle => inferInstanceAs
    (Decidable (needle.toList.head? ≠ some '%' ∧ needle.toList.getLast? ≠ some '%'))

theorem ofSegment_segment {q : Pattern} (hne : q.needle ≠ "") (h : q.IsWritable) :
    ofSegment q.segment = q := by
  have hchars : q.needle.toList ≠ [] := fun hnil => hne (String.toList_eq_nil_iff.1 hnil)
  cases q with
  | contains needle =>
    have hsegment : (segment (.contains needle)).toList = '%' :: needle.toList ++ ['%'] := by
      simp [segment]
    unfold ofSegment
    dsimp only
    rw [hsegment, List.getLast?_concat]
    simp
  | startsWith needle =>
    have hsegment : (segment (.startsWith needle)).toList = needle.toList ++ ['%'] := by
      simp [segment]
    have hhead : (needle.toList ++ ['%']).head? = needle.toList.head? :=
      List.head?_append_of_ne_nil _ hchars
    unfold ofSegment
    dsimp only
    rw [hsegment, List.getLast?_concat, hhead, beq_eq_false_iff_ne.2 h]
    simp
  | endsWith needle =>
    have hsegment : (segment (.endsWith needle)).toList = '%' :: needle.toList := by
      simp [segment]
    have hlast : ('%' :: needle.toList).getLast? = needle.toList.getLast? := by
      obtain ⟨c, cs, hcs⟩ := List.exists_cons_of_ne_nil hchars
      rw [show needle.toList = c :: cs from hcs, List.getLast?_cons_cons]
    unfold ofSegment
    dsimp only
    rw [hsegment, hlast, beq_eq_false_iff_ne.2 h]
    simp
  | equals needle =>
    unfold ofSegment
    dsimp only [segment]
    rw [beq_eq_false_iff_ne.2 h.1, beq_eq_false_iff_ne.2 h.2]

theorem segment_ne_empty {q : Pattern} (h : q.needle ≠ "") : q.segment ≠ "" := by
  cases q with
  | equals needle => exact h
  | _ => simp [segment]

theorem notMem_segment {q : Pattern} {c : Char} (hc : c ≠ '%') (h : c ∉ q.needle.toList) :
    c ∉ q.segment.toList := by
  cases q with
  | equals needle => exact h
  | _ =>
    dsimp only [needle] at h
    simp [segment, hc, h]

end Pattern

/-- **A text filter asks for the patterns whose segments it was written of.** -/
theorem patterns_joined_quoted {qs : List Pattern}
    (h : ∀ q ∈ qs, q.needle ≠ "" ∧ '"' ∉ q.needle.toList ∧ q.IsWritable) :
    (segments (Text.joined " or " (qs.map fun q => inQuotes q.segment))).map .ofSegment = qs := by
  have hsegments : ∀ g ∈ qs.map Pattern.segment, g ≠ "" ∧ '"' ∉ g.toList := by
    intro g hg
    obtain ⟨q, hq, rfl⟩ := List.mem_map.1 hg
    obtain ⟨hne, hquote, -⟩ := h q hq
    exact ⟨Pattern.segment_ne_empty hne, Pattern.notMem_segment (by decide) hquote⟩
  have hjoined := segments_joined_quoted hsegments
  rw [List.map_map] at hjoined
  rw [show (fun q : Pattern => inQuotes q.segment) = inQuotes ∘ Pattern.segment from rfl, hjoined,
    List.map_map]
  have hid : qs.map (Pattern.ofSegment ∘ Pattern.segment) = qs.map id :=
    List.map_congr_left fun q hq => Pattern.ofSegment_segment (h q hq).1 (h q hq).2.2
  rw [hid, List.map_id]

end RecordQuery.Filter
