import RecordQuery.Filter.Grammar
import RecordQuery.Proofs.Filter.Segments

/-!
# Segments by position

Which group a character of a text filter belongs to can be told from the text alone, position by
position, without reading it from the left.

* `quotedAt`, `separatorAt`, `keptAt` : the quotes are open at a position, a separator starts there, and
  the character there is kept;
* `keptBetween`, `groupsBetween` : the kept characters between two positions, and between neighbours of
  a list of positions;
* `separatorsFrom`, `groupsFrom` : the separators from a position on, and the groups between them;
* `ReadTo` : the state of the reading at a position, which one step keeps (`ReadTo.succ`,
  `ReadTo.separator`);
* `groups_eq_groupsFrom` : the groups that are read off the rest of a text are those by position;
* `flatten_groupsBetween` : the groups hold the kept characters in their order;
* `segments_eq_groupsFrom` : the segments of a text are its groups by position.
-/

namespace RecordQuery.Filter

variable {cs ds : List Char} {c d : Char} {a b i : Nat} {ss : List Nat}

/-! ## What stands at a position -/

/-- The quotes are open in front of the position: an odd number of them stands before it. -/
def quotedAt (cs : List Char) (i : Nat) : Bool := (cs.take i).count '"' % 2 == 1

/-- The two letters of a separator stand at the position, outside quotes. -/
def separatorAt (cs : List Char) (i : Nat) : Bool :=
  !quotedAt cs i && (cs[i]? == some 'o' || cs[i]? == some 'O') &&
    (cs[i + 1]? == some 'r' || cs[i + 1]? == some 'R')

/-- The character at the position is no quote, no blank outside quotes, and neither letter of a
separator. -/
def keptAt (cs : List Char) (i : Nat) : Bool :=
  match cs[i]? with
  | none => false
  | some c => c != '"' && (quotedAt cs i || !Text.isBlank c) && !separatorAt cs i &&
      !(decide (0 < i) && separatorAt cs (i - 1))

/-- The kept characters from position `a` up to position `b`, without the one there. -/
def keptBetween (cs : List Char) (a b : Nat) : List Char :=
  ((List.range' a (b - a)).filter (keptAt cs)).filterMap (cs[·]?)

/-- The kept characters from `a` to the first of the positions, between neighbours of them, and from the
last one to the end. -/
def groupsBetween (cs : List Char) (a : Nat) (ss : List Nat) : List (List Char) :=
  List.zipWith (keptBetween cs) (a :: ss) (ss ++ [cs.length])

def separatorsFrom (cs : List Char) (i : Nat) : List Nat :=
  (List.range' i (cs.length - i)).filter (separatorAt cs)

def groupsFrom (cs : List Char) (i : Nat) : List (List Char) :=
  groupsBetween cs i (separatorsFrom cs i)

/-! ## One position further -/

theorem quotedAt_succ (h : cs[i]? = some c) : quotedAt cs (i + 1) = (quotedAt cs i ^^ (c == '"')) := by
  have htake : cs.take (i + 1) = cs.take i ++ [c] := by rw [List.take_add_one, h]; rfl
  unfold quotedAt
  rw [htake, List.count_append, List.count_singleton]
  cases hc : c == '"' with
  | false => simp
  | true =>
    have hmod := Nat.mod_two_eq_zero_or_one ((cs.take i).count '"')
    rcases hmod with h0 | h1
    · rw [if_pos rfl, Nat.add_mod, h0]; rfl
    · rw [if_pos rfl, Nat.add_mod, h1]; rfl

theorem separatorAt_eq (h : cs[i]? = some c) (h' : cs[i + 1]? = some d) :
    separatorAt cs i = (!quotedAt cs i && isSeparator c d) := by
  unfold separatorAt isSeparator
  rw [h, h']
  simp [Bool.and_assoc]

theorem keptAt_eq (h : cs[i]? = some c) (hprev : ∀ j, j + 1 = i → separatorAt cs j = false) :
    keptAt cs i = (c != '"' && (quotedAt cs i || !Text.isBlank c) && !separatorAt cs i) := by
  unfold keptAt
  rw [h]
  cases i with
  | zero => simp
  | succ j => simp [hprev j rfl]

/-- No separator starts at the second letter of one, and that letter is not kept. -/
theorem second_of_separatorAt (h : separatorAt cs i) :
    separatorAt cs (i + 1) = false ∧ keptAt cs (i + 1) = false := by
  have hletter : cs[i + 1]? = some 'r' ∨ cs[i + 1]? = some 'R' := by
    unfold separatorAt at h
    simp only [Bool.and_eq_true, Bool.or_eq_true, beq_iff_eq] at h
    exact h.2
  constructor
  · unfold separatorAt
    rcases hletter with hr | hr <;> rw [hr] <;> simp
  · unfold keptAt
    rcases hletter with hr | hr <;> rw [hr] <;> simp [h]

theorem keptBetween_self (cs : List Char) (a : Nat) : keptBetween cs a a = [] := by
  simp [keptBetween]

theorem keptBetween_append {m : Nat} (ham : a ≤ m) (hmb : m ≤ b) :
    keptBetween cs a m ++ keptBetween cs m b = keptBetween cs a b := by
  have hrange : List.range' a (b - a) = List.range' a (m - a) ++ List.range' m (b - m) := by
    have hlen : b - a = (m - a) + (b - m) := by omega
    have hm : a + (m - a) = m := by omega
    rw [hlen, ← List.range'_append_1, hm]
  unfold keptBetween
  rw [hrange, List.filter_append, List.filterMap_append]

theorem keptBetween_succ_of_kept (h : cs[a]? = some c) (hkept : keptAt cs a) :
    keptBetween cs a (a + 1) = [c] := by
  simp [keptBetween, hkept, h]

theorem keptBetween_succ_of_not_kept (h : keptAt cs a = false) : keptBetween cs a (a + 1) = [] := by
  simp [keptBetween, h]

theorem separatorsFrom_of_lt (h : i < cs.length) : separatorsFrom cs i =
    if separatorAt cs i then i :: separatorsFrom cs (i + 1) else separatorsFrom cs (i + 1) := by
  have hlen : cs.length - i = (cs.length - (i + 1)) + 1 := by omega
  unfold separatorsFrom
  rw [hlen, List.range'_succ, List.filter_cons]

theorem lt_of_mem_separatorsFrom (h : b ∈ separatorsFrom cs i) : i ≤ b ∧ b < cs.length := by
  have hrange := List.mem_range'_1.1 (List.mem_filter.1 h).1
  omega

theorem groupsBetween_succ (ha : a < cs.length) (hss : ∀ b ∈ ss, a < b) :
    groupsBetween cs a ss =
      (groupsBetween cs (a + 1) ss).modifyHead (keptBetween cs a (a + 1) ++ ·) := by
  have hend : ∀ b ∈ ss ++ [cs.length], a + 1 ≤ b := by
    intro b hb
    rcases List.mem_append.1 hb with hb | hb
    · exact hss b hb
    · exact List.mem_singleton.1 hb ▸ ha
  obtain ⟨b, bs, hbs⟩ := List.exists_cons_of_ne_nil (l := ss ++ [cs.length]) (by simp)
  unfold groupsBetween
  rw [hbs] at hend ⊢
  have hb : a + 1 ≤ b := hend b List.mem_cons_self
  rw [List.zipWith_cons_cons, List.zipWith_cons_cons, List.modifyHead_cons,
    keptBetween_append (Nat.le_succ a) hb]

/-- A position at which no separator starts adds its character to the first group, if it is kept. -/
theorem groupsFrom_of_not_separator (hi : i < cs.length) (h : separatorAt cs i = false) :
    groupsFrom cs i = (groupsFrom cs (i + 1)).modifyHead (keptBetween cs i (i + 1) ++ ·) := by
  have hss : separatorsFrom cs i = separatorsFrom cs (i + 1) := by
    rw [separatorsFrom_of_lt hi, h]
    rfl
  unfold groupsFrom
  rw [hss]
  exact groupsBetween_succ hi fun b hb => (lt_of_mem_separatorsFrom hb).1

/-- At a separator one group ends, and the next one begins after its two letters. -/
theorem groupsFrom_of_separator (hi : i + 1 < cs.length) (h : separatorAt cs i) :
    groupsFrom cs i = [] :: groupsFrom cs (i + 2) := by
  obtain ⟨hnext, hnotKept⟩ := second_of_separatorAt h
  have hfirst : keptAt cs i = false := by
    unfold keptAt
    split
    · rfl
    · simp [h]
  have hss : separatorsFrom cs i = i :: separatorsFrom cs (i + 2) := by
    rw [separatorsFrom_of_lt (by omega), if_pos h, separatorsFrom_of_lt hi, hnext]
    rfl
  have hlt : ∀ b ∈ separatorsFrom cs (i + 2), i + 1 < b := by
    intro b hb
    have := (lt_of_mem_separatorsFrom hb).1
    omega
  have hletters : groupsBetween cs i (separatorsFrom cs (i + 2)) =
      groupsBetween cs (i + 2) (separatorsFrom cs (i + 2)) := by
    rw [groupsBetween_succ (by omega) fun b hb => by have := hlt b hb; omega,
      groupsBetween_succ hi hlt, keptBetween_succ_of_not_kept hfirst,
      keptBetween_succ_of_not_kept hnotKept]
    simp only [List.nil_append]
    exact (congrFun List.modifyHead_id _).trans (congrFun List.modifyHead_id _)
  unfold groupsFrom
  rw [hss, ← hletters]
  show keptBetween cs i i :: groupsBetween cs i (separatorsFrom cs (i + 2)) = _
  rw [keptBetween_self]

theorem groupsFrom_length (cs : List Char) : groupsFrom cs cs.length = [[]] := by
  have hss : separatorsFrom cs cs.length = [] := by simp [separatorsFrom]
  rw [groupsFrom, hss]
  show [keptBetween cs cs.length cs.length] = _
  rw [keptBetween_self]

/-- A position with nothing to keep and without a separator makes no difference. -/
theorem groupsFrom_of_skipped (hi : i < cs.length) (hsep : separatorAt cs i = false)
    (hkept : keptAt cs i = false) : groupsFrom cs i = groupsFrom cs (i + 1) := by
  rw [groupsFrom_of_not_separator hi hsep, keptBetween_succ_of_not_kept hkept]
  exact congrFun List.modifyHead_id _

/-! ## Reading from the left -/

/-- The text has been read up to a position: `rest` is left, and the position is not between the two
letters of a separator. -/
structure ReadTo (cs : List Char) (i : Nat) (quoted : Bool) (rest : List Char) : Prop where
  le : i ≤ cs.length
  rest_eq : cs.drop i = rest
  quotes : quotedAt cs i = quoted
  fresh : ∀ j, j + 1 = i → separatorAt cs j = false

namespace ReadTo
variable {quoted : Bool}

theorem start (cs : List Char) : ReadTo cs 0 false cs :=
  ⟨Nat.zero_le _, rfl, rfl, nofun⟩

theorem lt (h : ReadTo cs i quoted (c :: ds)) : i < cs.length := by
  have hlen := congrArg List.length h.rest_eq
  rw [List.length_drop, List.length_cons] at hlen
  omega

theorem get (h : ReadTo cs i quoted (c :: ds)) : cs[i]? = some c := by
  rw [← List.head?_drop, h.rest_eq]
  rfl

theorem get_succ (h : ReadTo cs i quoted (c :: ds)) : cs[i + 1]? = ds.head? := by
  rw [← List.head?_drop, ← List.tail_drop, h.rest_eq]
  rfl

theorem kept_eq (h : ReadTo cs i quoted (c :: ds)) :
    keptAt cs i = (c != '"' && (quoted || !Text.isBlank c) && !separatorAt cs i) := by
  rw [← h.quotes]
  exact keptAt_eq h.get h.fresh

/-- A character that is neither a quote, nor a blank outside quotes, nor a letter of a separator. -/
theorem kept (h : ReadTo cs i quoted (c :: ds)) (hblank : ¬(!quoted && Text.isBlank c) = true)
    (hquote : ¬(c == '"') = true) (hsep : separatorAt cs i = false) : keptAt cs i := by
  rw [h.kept_eq, hsep, bne, Bool.eq_false_iff.2 hquote]
  cases quoted with
  | true => rfl
  | false => simpa using hblank

theorem succ (h : ReadTo cs i quoted (c :: ds)) (hsep : separatorAt cs i = false) :
    ReadTo cs (i + 1) (quoted ^^ (c == '"')) ds where
  le := h.lt
  rest_eq := by rw [← List.tail_drop, h.rest_eq]; rfl
  quotes := by rw [quotedAt_succ h.get, h.quotes]
  fresh j hj := by rw [Nat.succ.inj hj, hsep]

/-- Past a separator, whose letters are no quotes. -/
theorem separator (h : ReadTo cs i quoted (c :: d :: ds)) (hsep : separatorAt cs i) :
    ReadTo cs (i + 2) quoted ds where
  le := by
    have hlen := congrArg List.length h.rest_eq
    rw [List.length_drop, List.length_cons, List.length_cons] at hlen
    omega
  rest_eq := by rw [← List.tail_drop, ← List.tail_drop, h.rest_eq]; rfl
  quotes := by
    have hletters : isSeparator c d := by
      rw [separatorAt_eq h.get h.get_succ, Bool.and_eq_true] at hsep
      exact hsep.2
    have hne : (c == '"') = false ∧ (d == '"') = false := by
      unfold isSeparator at hletters
      simp only [Bool.and_eq_true, Bool.or_eq_true, beq_iff_eq] at hletters
      rcases hletters with ⟨rfl | rfl, rfl | rfl⟩ <;> decide
    rw [quotedAt_succ h.get_succ, quotedAt_succ h.get, h.quotes, hne.1, hne.2, Bool.xor_false,
      Bool.xor_false]
  fresh j hj := by rw [Nat.succ.inj hj, (second_of_separatorAt hsep).1]

end ReadTo

/-- **The groups that are read off the rest of a text are those by position.** -/
theorem groups_eq_groupsFrom {quoted : Bool} (h : ReadTo cs i quoted ds) :
    groups quoted ds = groupsFrom cs i := by
  fun_induction groups quoted ds generalizing i with
  | case1 quoted =>
    have hlen : i = cs.length := by
      have hle := List.drop_eq_nil_iff.1 h.rest_eq
      have hge := h.le
      omega
    rw [hlen, groupsFrom_length]
  | case2 quoted c ds hblank ih =>
    simp only [Bool.and_eq_true, Bool.not_eq_true'] at hblank
    have hne : c ≠ '"' ∧ c ≠ 'o' ∧ c ≠ 'O' := by
      refine ⟨?_, ?_, ?_⟩ <;> rintro rfl <;> exact absurd hblank.2 (by decide)
    have hsep : separatorAt cs i = false := by simp [separatorAt, h.get, hne]
    have hkept : keptAt cs i = false := by simp [h.kept_eq, hblank]
    have hnext := h.succ hsep
    rw [beq_eq_false_iff_ne.2 hne.1, Bool.xor_false] at hnext
    rw [groupsFrom_of_skipped h.lt hsep hkept, ih hnext]
  | case3 quoted c ds hblank hquote ih =>
    have hsep : separatorAt cs i = false := by
      rw [beq_iff_eq] at hquote
      simp [separatorAt, h.get, hquote]
    have hkept : keptAt cs i = false := by
      rw [beq_iff_eq] at hquote
      simp [h.kept_eq, hquote]
    have hnext := h.succ hsep
    rw [hquote, Bool.xor_true] at hnext
    rw [groupsFrom_of_skipped h.lt hsep hkept, ih hnext]
  | case4 quoted c hblank hquote =>
    -- The last character has no letter after it that could make it a separator.
    have hsep : separatorAt cs i = false := by simp [separatorAt, h.get_succ]
    have hkept := h.kept hblank hquote hsep
    have hnext := h.succ hsep
    have hend : i + 1 = cs.length := by
      have hle := List.drop_eq_nil_iff.1 hnext.rest_eq
      have hge := hnext.le
      omega
    rw [groupsFrom_of_not_separator h.lt hsep, keptBetween_succ_of_kept h.get hkept, hend,
      groupsFrom_length]
    rfl
  | case5 quoted c hblank hquote d ds hboth ih =>
    simp only [Bool.and_eq_true, Bool.not_eq_true'] at hboth
    have hsep : separatorAt cs i := by
      rw [separatorAt_eq h.get h.get_succ, h.quotes, hboth.1, hboth.2]
      rfl
    have hnext := h.separator hsep
    have hlt : i + 1 < cs.length := by
      have hge := hnext.le
      omega
    rw [groupsFrom_of_separator hlt hsep, ih hnext]
  | case6 quoted c hblank hquote d ds hboth ih =>
    have hsep : separatorAt cs i = false := by
      rw [separatorAt_eq h.get h.get_succ, h.quotes]
      exact Bool.eq_false_iff.2 hboth
    have hkept := h.kept hblank hquote hsep
    have hnext := h.succ hsep
    rw [Bool.eq_false_iff.2 hquote, Bool.xor_false] at hnext
    rw [groupsFrom_of_not_separator h.lt hsep, keptBetween_succ_of_kept h.get hkept, ← ih hnext]
    exact Text.consHead_eq_modifyHead (groups_ne_nil quoted (d :: ds)) c

/-! ## All groups together -/

theorem flatten_groupsBetween (h : (a :: (ss ++ [cs.length])).Pairwise (· ≤ ·)) :
    (groupsBetween cs a ss).flatten = keptBetween cs a cs.length := by
  induction ss generalizing a with
  | nil => simp [groupsBetween]
  | cons b ss ih =>
    obtain ⟨hfirst, hrest⟩ := List.pairwise_cons.1 h
    have hab : a ≤ b := hfirst b (by simp)
    have hb : b ≤ cs.length := (List.pairwise_cons.1 hrest).1 cs.length (by simp)
    show (keptBetween cs a b :: groupsBetween cs b ss).flatten = _
    rw [List.flatten_cons, ih hrest, keptBetween_append hab hb]

theorem pairwise_separatorsFrom (h : i ≤ cs.length) :
    (i :: (separatorsFrom cs i ++ [cs.length])).Pairwise (· ≤ ·) := by
  have hsorted : (separatorsFrom cs i).Pairwise (· ≤ ·) :=
    (List.pairwise_le_range' (s := i) (n := cs.length - i)).filter _
  have hbounds : ∀ b ∈ separatorsFrom cs i, i ≤ b ∧ b ≤ cs.length := by
    intro b hb
    have hmem := lt_of_mem_separatorsFrom hb
    omega
  rw [List.pairwise_cons, List.pairwise_append]
  refine ⟨?_, hsorted, List.pairwise_singleton _ _, ?_⟩
  · intro b hb
    rcases List.mem_append.1 hb with hb | hb
    · exact (hbounds b hb).1
    · exact List.mem_singleton.1 hb ▸ h
  · intro b hb n hn
    exact List.mem_singleton.1 hn ▸ (hbounds b hb).2

theorem groupsBetween_ne_nil (cs : List Char) (a : Nat) (ss : List Nat) : groupsBetween cs a ss ≠ [] := by
  obtain ⟨b, bs, hbs⟩ := List.exists_cons_of_ne_nil (l := ss ++ [cs.length]) (by simp)
  unfold groupsBetween
  rw [hbs]
  exact List.cons_ne_nil _ _

theorem dropEmptyLast_concat (before : List (List Char)) (last : List Char) :
    dropEmptyLast (before ++ [last]) = if last = [] then before else before ++ [last] := by
  unfold dropEmptyLast
  rw [List.getLast?_concat, List.dropLast_concat]
  simp only [Option.some.injEq]

theorem flatten_dropEmptyLast (gs : List (List Char)) : (dropEmptyLast gs).flatten = gs.flatten := by
  rcases List.eq_nil_or_concat gs with rfl | ⟨before, last, rfl⟩
  · rfl
  · rw [List.concat_eq_append, dropEmptyLast_concat]
    split
    · rename_i hlast
      simp [hlast]
    · rfl

/-- **The segments of a text are the groups of kept characters between its separators**, in their order
and empty ones included, but for an empty group after the last separator. Together they hold all kept
characters of the text in their order. -/
theorem segments_eq_groupsFrom (text : String) : ∃ before last,
    groupsFrom text.toList 0 = before ++ [last] ∧
    segments text = (if last = [] then before else before ++ [last]).map String.ofList ∧
    (segments text).flatMap String.toList = keptBetween text.toList 0 text.toList.length := by
  have hgroups : groups false text.toList = groupsFrom text.toList 0 :=
    groups_eq_groupsFrom (ReadTo.start text.toList)
  have hsegments : segments text = (dropEmptyLast (groupsFrom text.toList 0)).map String.ofList := by
    rw [segments, hgroups]
  have hne : groupsFrom text.toList 0 ≠ [] := groupsBetween_ne_nil _ _ _
  have hsplit := (List.dropLast_concat_getLast hne).symm
  refine ⟨_, _, hsplit, ?_, ?_⟩
  · rw [hsegments, ← dropEmptyLast_concat, ← hsplit]
  · have hflat : (segments text).flatMap String.toList = (groupsFrom text.toList 0).flatten := by
      rw [hsegments, List.flatMap_map, ← flatten_dropEmptyLast (groupsFrom text.toList 0)]
      simp [List.flatMap_def]
    rw [hflat]
    exact flatten_groupsBetween (pairwise_separatorsFrom (Nat.zero_le _))

example : (groupsFrom "oor \"A or\" x Or".toList 0).map String.ofList = ["o", "A orx", ""] := by decide

end RecordQuery.Filter
