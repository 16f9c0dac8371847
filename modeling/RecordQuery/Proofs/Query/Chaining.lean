import RecordQuery.Proofs.Filter.RootParameter
import RecordQuery.Proofs.Query.Stages

/-!
# Filters one after the other

Two lists of filters can be joined to one, or each can be a stage of its own. A stage drops a row at
the first null and the joined list goes on to look for an error, so the stages succeed more often.

* `Filter.scan_append` : where the scan of two lists of values ends;
* `Filter.bothStages_of_scan` : an answer of the joined list is the answer of the two stages;
* `Query.toList_filter_append` : the joined list and the two stages, on any rows.
-/

namespace RecordQuery

/-! ## Scans of two lists of values -/

namespace Filter

/-- A scan of two lists ends in the first one, or goes on in the second one with its answer. -/
theorem scan_append (all : Bool) (xs ys : List (Except Error Value)) :
    (scan all (xs ++ ys) = scan all xs ∧ scan all xs ≠ .ok true) ∨
      ∃ b, scan all xs = .ok b ∧ scan all (xs ++ ys) = scan b ys := by
  induction xs generalizing all with
  | nil => exact .inr ⟨all, rfl, rfl⟩
  | cons x xs ih =>
    cases x with
    | error e => exact .inl ⟨rfl, nofun⟩
    | ok v =>
      cases v with
      | null => exact ih false
      | bool b =>
        cases b with
        | true => exact ih all
        | false => exact .inl ⟨rfl, nofun⟩
      | _ => exact .inl ⟨rfl, nofun⟩

/-- The answer of two stages, of which the second is asked only if the first says true. -/
def bothStages (first second : Except Error Bool) : Except Error Bool := do
  if ← first then second else return false

theorem bothStages_of_scan {xs ys : List (Except Error Value)} {b : Bool}
    (h : scan true (xs ++ ys) = .ok b) : bothStages (scan true xs) (scan true ys) = .ok b := by
  unfold bothStages
  rcases scan_append true xs ys with ⟨hsame, hne⟩ | ⟨c, hxs, hys⟩
  · rw [hsame] at h
    cases b with
    | true => exact absurd h hne
    | false => rw [h, ok_bind]; rfl
  · rw [hys] at h
    rw [hxs, ok_bind]
    cases c with
    | true => exact h
    | false =>
      -- After a null the rest of the scan can only fail or say false.
      cases b with
      | true => exact absurd (scan_eq_ok_true_iff.1 h).1 Bool.false_ne_true
      | false => rfl

theorem applied_append (fs gs : List Descriptor) : applied (fs ++ gs) = applied fs ++ applied gs :=
  List.filter_append fs gs

section Answers
variable {s : Schema} {o : Options} {id : Nat} {root : Ty} {ds ds' : List Descriptor} {l l' : Lambda}
  {row : Value}

theorem exists_test_eq_ok (h : compile s o id root ds = .ok l)
    (hok : ∀ x ∈ (applied ds).map (valueOn s o (rootParam o id root) row), ∃ v, x = .ok v) :
    ∃ b, l.test row = .ok b := by
  obtain ⟨hscan, htruths⟩ := test_eq_scan h row
  rw [hscan]
  exact exists_scan_eq_ok true htruths hok

theorem test_eq_of_perm (h : compile s o id root ds = .ok l) (h' : compile s o id root ds' = .ok l')
    (hperm : ds.Perm ds')
    (hok : ∀ x ∈ (applied ds).map (valueOn s o (rootParam o id root) row), ∃ v, x = .ok v) :
    l'.test row = l.test row := by
  obtain ⟨hscan, htruths⟩ := test_eq_scan h row
  rw [(test_eq_scan h' row).1, hscan]
  exact scan_eq_of_perm ((hperm.filter _).map _) htruths hok

end Answers

end Filter

/-! ## Two predicates one after the other -/

namespace Query

theorem runStages_filter_filter (row : Value) (l l' : Lambda) :
    runStages row [.filter l, .filter l'] =
      kept row (Filter.bothStages (l.test row) (l'.test row)) := by
  rw [runStages, runStages_filter]
  cases l.test row with
  | error e => rfl
  | ok b => cases b <;> rfl

/-! ## A list of filters as two stages -/

open RecordQuery.Filter

variable {s : Schema} {o : Options} {root : Ty} {fs gs : List Descriptor} {i j k : Nat}
  {l lf lg : Lambda}

theorem exists_compile_append (hf : compile s o i root fs = .ok lf)
    (hg : compile s o j root gs = .ok lg) (k : Nat) :
    ∃ l, compile s o k root (fs ++ gs) = .ok l := by
  obtain ⟨lf', hf', -⟩ := (matches_compile s rfl i k root fs).exists_eq_ok hf
  obtain ⟨lg', hg', -⟩ := (matches_compile s rfl j k root gs).exists_eq_ok hg
  rw [exists_compile_eq_ok_iff, applied_append, List.forall_mem_append]
  exact ⟨exists_compile_eq_ok_iff.1 ⟨lf', hf'⟩, exists_compile_eq_ok_iff.1 ⟨lg', hg'⟩⟩

/-- An answer of the joined list is the answer of the two stages, on any row. -/
theorem bothStages_of_test (hf : compile s o i root fs = .ok lf) (hg : compile s o j root gs = .ok lg)
    (hl : compile s o k root (fs ++ gs) = .ok l) {row : Value} {b : Bool}
    (h : l.test row = .ok b) : bothStages (lf.test row) (lg.test row) = .ok b := by
  have hvalues (n : Nat) (ds : List Descriptor) :
      (applied ds).map (valueOn s o (rootParam o n root) row) =
        (applied ds).map (valueOn s o (rootParam o k root) row) :=
    List.map_congr_left fun d _ => valueOn_eq s o k n root row d
  rw [(test_eq_scan hl row).1, applied_append, List.map_append] at h
  rw [(test_eq_scan hf row).1, (test_eq_scan hg row).1, hvalues i fs, hvalues j gs]
  exact bothStages_of_scan h

theorem toList_of_append (hf : compile s o i root fs = .ok lf) (hg : compile s o j root gs = .ok lg)
    (hl : compile s o k root (fs ++ gs) = .ok l) {rows result : List Value}
    (h : ((ofRows rows).filter l).toList = .ok result) :
    (((ofRows rows).filter lf).filter lg).toList = .ok result := by
  refine runRows_mono [.filter l] [.filter lf, .filter lg] (fun row _ x hx => ?_) h
  rw [runStages_filter] at hx
  obtain ⟨b, hb, rfl⟩ := map_eq_ok.1 hx
  rw [runStages_filter_filter, bothStages_of_test hf hg hl hb]
  rfl

/-- **A joined list of filters and its two parts as stages.** On any rows a result of the joined list is
the result of the two stages, with the same rows in the same order. If no filter fails on any of the
rows, the joined list, the two stages, and the two stages the other way round all have one result. -/
theorem toList_filter_append (hf : compile s o i root fs = .ok lf)
    (hg : compile s o j root gs = .ok lg) (k : Nat) :
    ∃ l, compile s o k root (fs ++ gs) = .ok l ∧ ∀ rows,
      (∀ result, ((ofRows rows).filter l).toList = .ok result →
        (((ofRows rows).filter lf).filter lg).toList = .ok result) ∧
      ((∀ d ∈ applied (fs ++ gs), ∀ row ∈ rows, ∃ v,
          valueOn s o (rootParam o k root) row d = .ok v) →
        ∃ result, ((ofRows rows).filter l).toList = .ok result ∧
          (((ofRows rows).filter lf).filter lg).toList = .ok result ∧
          (((ofRows rows).filter lg).filter lf).toList = .ok result) := by
  obtain ⟨l, hl⟩ := exists_compile_append hf hg k
  obtain ⟨l', hl'⟩ := exists_compile_append hg hf k
  refine ⟨l, hl, fun rows => ⟨fun result => toList_of_append hf hg hl, fun hok => ?_⟩⟩
  have hvalues : ∀ row ∈ rows, ∀ x ∈ (applied (fs ++ gs)).map (valueOn s o (rootParam o k root) row),
      ∃ v, x = .ok v := by
    intro row hrow x hx
    obtain ⟨d, hd, rfl⟩ := List.mem_map.1 hx
    exact hok d hd row hrow
  obtain ⟨result, hresult⟩ : ∃ result, ((ofRows rows).filter l).toList = .ok result := by
    refine exists_runRows_eq_ok [.filter l] fun row hrow => ?_
    obtain ⟨b, hb⟩ := exists_test_eq_ok hl (hvalues row hrow)
    exact ⟨_, by rw [runStages_filter, hb]; rfl⟩
  -- The list joined the other way round has the same answer on each of the rows.
  have hswapped : ((ofRows rows).filter l').toList = .ok result := by
    refine runRows_mono [.filter l] [.filter l'] (fun row hrow x hx => ?_) hresult
    rw [runStages_filter] at hx
    rw [runStages_filter, test_eq_of_perm hl hl' List.perm_append_comm (hvalues row hrow), hx]
  exact ⟨result, hresult, toList_of_append hf hg hl hresult, toList_of_append hg hf hl' hswapped⟩

/-! ## Filters of persons as stages -/

def ownerGrown : List Descriptor := [⟨"Card.Owner.Age", .greaterOrEqual, some "18"⟩]

/-- There is a card, and the second filter is not applied. -/
def hasCard : List Descriptor := [⟨"Card", .isNotEmpty, none⟩, ⟨"Nickname", .none, none⟩]

/-- A person without a card has no owner's age either, which is not of age. -/
theorem toList_guests :
    ∃ l lf lg, (compile people {} 1 (.record "Person") (ownerGrown ++ hasCard) = .ok l ∧
        compile people {} 2 (.record "Person") ownerGrown = .ok lf ∧
        compile people {} 3 (.record "Person") hasCard = .ok lg) ∧
      ((ofRows [.record [], guest]).filter l).toList = .ok [guest] ∧
      (((ofRows [.record [], guest]).filter lf).filter lg).toList = .ok [guest] ∧
      (((ofRows [.record [], guest]).filter lg).filter lf).toList = .ok [guest] := by
  obtain ⟨lf, hf⟩ : ∃ lf, compile people {} 2 (.record "Person") ownerGrown = .ok lf := ⟨_, rfl⟩
  obtain ⟨lg, hg⟩ : ∃ lg, compile people {} 3 (.record "Person") hasCard = .ok lg := ⟨_, rfl⟩
  obtain ⟨l, hl, hrows⟩ := toList_filter_append hf hg 1
  obtain ⟨-, hsame⟩ := hrows [.record [], guest]
  have hresult : ((ofRows [.record [], guest]).filter l).toList = .ok [guest] := by
    cases hl
    rfl
  have happlied : applied (ownerGrown ++ hasCard) = [ownerGrown[0], hasCard[0]] := rfl
  have hok : ∀ d ∈ applied (ownerGrown ++ hasCard), ∀ row ∈ [Value.record [], guest],
      ∃ v, valueOn people {} (rootParam {} 1 (.record "Person")) row d = .ok v := by
    rw [happlied]
    simp only [List.forall_mem_cons, List.not_mem_nil, false_implies, implies_true, and_true]
    exact ⟨⟨⟨_, rfl⟩, ⟨_, rfl⟩⟩, ⟨_, rfl⟩, ⟨_, rfl⟩⟩
  obtain ⟨result, hmerged, hchained, hswapped⟩ := hsame hok
  cases hresult.symm.trans hmerged
  exact ⟨l, lf, lg, ⟨hl, hf, hg⟩, hresult, hchained, hswapped⟩

end Query

end RecordQuery
