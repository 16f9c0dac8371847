import RecordQuery.Proofs.Expr.Soundness
import RecordQuery.Proofs.Expr.Evaluation
import RecordQuery.Proofs.Filter.Predicate

/-!
# The answer of a list of filters

The predicate of a list of filters joins their predicates with `and`, from left to right. On a row it
answers as if their values were looked at one after the other.

* `Filter.applied` : the filters that have an operator;
* `Filter.scan` : false ends the scan, null only rules out the answer true, an error is the answer;
* `test_foldl_and` : a chain of tests answers as the scan of their values;
* `compile_eq_ok` : a list compiles when each applied filter has a predicate;
* `test_compile` : the answer of a compiled list, and why the order does not matter without errors.
-/

namespace RecordQuery

/-! ## Answers of functions -/

namespace Lambda
variable {p : Param} {body : Expr} {row : Value}

theorem test_of_eq_ok {t : Option Bool} (h : body.eval p row = .ok (.ofTruth t)) :
    test ⟨p, body⟩ row = .ok (t == some true) := by
  unfold test invoke
  rw [h, ok_bind]
  cases t with
  | none => rfl
  | some b => cases b <;> rfl

theorem test_of_eq_error {e : Error} (h : body.eval p row = .error e) :
    test ⟨p, body⟩ row = .error e := by
  unfold test invoke
  rw [h, error_bind]

end Lambda

namespace Filter
open RecordQuery.Expr

/-! ## Scanning values -/

/-- The answer of values that are looked at from left to right; `all` tells whether those before
them were all true. -/
def scan (all : Bool) : List (Except Error Value) → Except Error Bool
  | [] => .ok all
  | .error e :: _ => .error e
  | .ok (.bool true) :: values => scan all values
  | .ok (.bool false) :: _ => .ok false
  | .ok .null :: values => scan false values
  | .ok v :: _ => .error (.evaluation (.notPredicate v.text))

theorem scan_ofTruth (all : Bool) (t : Option Bool) (values : List (Except Error Value)) :
    scan all (.ok (.ofTruth t) :: values) =
      if t = some false then .ok false else scan (all && t == some true) values := by
  cases t with
  | none =>
    rw [if_neg (by simp)]
    cases all <;> rfl
  | some b =>
    cases b with
    | false => rfl
    | true =>
      rw [if_neg (by simp)]
      cases all <;> rfl

variable {values values' : List (Except Error Value)} {all : Bool}

def Truths (values : List (Except Error Value)) : Prop :=
  ∀ x ∈ values, ∀ v, x = .ok v → ∃ t, v = .ofTruth t

theorem Truths.tail {x : Except Error Value} (h : Truths (x :: values)) : Truths values :=
  fun y hy => h y (List.mem_cons_of_mem x hy)

theorem scan_eq_ok_true_iff : scan all values = .ok true ↔
    all = true ∧ ∀ x ∈ values, x = .ok (.bool true) := by
  induction values generalizing all with
  | nil => simp [scan]
  | cons x values ih =>
    rw [List.forall_mem_cons]
    cases x with
    | error e => simp [scan]
    | ok v =>
      cases v with
      | bool b =>
        cases b with
        | false => simp [scan]
        | true => rw [scan, ih]; simp
      | null => rw [scan, ih]; simp
      | _ => simp [scan]

theorem mem_of_scan_eq_error {e : Error} (htruths : Truths values) (h : scan all values = .error e) :
    .error e ∈ values := by
  induction values generalizing all with
  | nil => cases h
  | cons x values ih =>
    cases x with
    | error e' =>
      cases h
      exact List.mem_cons_self
    | ok v =>
      obtain ⟨t, rfl⟩ := htruths _ List.mem_cons_self v rfl
      rw [scan_ofTruth] at h
      split at h
      · cases h
      · exact List.mem_cons_of_mem _ (ih htruths.tail h)

theorem exists_scan_eq_ok (all : Bool) (htruths : Truths values) (hok : ∀ x ∈ values, ∃ v, x = .ok v) :
    ∃ b, scan all values = .ok b := by
  cases hscan : scan all values with
  | ok b => exact ⟨b, rfl⟩
  | error e =>
    obtain ⟨v, hv⟩ := hok _ (mem_of_scan_eq_error htruths hscan)
    cases hv

/-- Without errors the answer does not depend on the order of the values. -/
theorem scan_eq_of_perm (hperm : values.Perm values') (htruths : Truths values)
    (hok : ∀ x ∈ values, ∃ v, x = .ok v) : scan all values' = scan all values := by
  obtain ⟨b, hb⟩ := exists_scan_eq_ok all htruths hok
  obtain ⟨b', hb'⟩ := exists_scan_eq_ok all (fun x hx => htruths x (hperm.mem_iff.2 hx))
    (fun x hx => hok x (hperm.mem_iff.2 hx))
  -- Both answers are true exactly if all values are.
  have htrue : scan all values' = .ok true ↔ scan all values = .ok true := by
    rw [scan_eq_ok_true_iff, scan_eq_ok_true_iff]
    simp only [hperm.mem_iff]
  rw [hb, hb', Except.ok.injEq, Except.ok.injEq] at htrue
  rw [hb, hb', Bool.eq_iff_iff.2 htrue]

/-! ## Chains of tests -/

variable {p : Param} {row : Value}

/-- **A chain of tests answers as the scan of their values does.** The induction is on the tests
still to come; the chain before them has had the truth value `t`. -/
theorem test_foldl_and {es : List Expr} {e : Expr} {t : Option Bool} (hes : ∀ x ∈ es, x.IsTest)
    (h : e.eval p row = .ok (.ofTruth t)) :
    Lambda.test ⟨p, es.foldl (.binary .and) e⟩ row =
      if t = some false then .ok false else scan (t == some true) (es.map (eval p row)) := by
  induction es generalizing e t with
  | nil =>
    rw [List.foldl_nil, Lambda.test_of_eq_ok h]
    cases t with
    | none => rfl
    | some b => cases b <;> rfl
  | cons x xs ih =>
    have htail : ∀ y ∈ xs, y.IsTest := fun y hy => hes y (List.mem_cons_of_mem x hy)
    rw [List.foldl_cons, List.map_cons]
    by_cases ht : t = some false
    · rw [ih htail (eval_decided rfl (ht ▸ h)), if_pos rfl, if_pos ht]
    · rw [if_neg ht]
      cases hx : x.eval p row with
      | error err =>
        have hand : (Expr.binary .and e x).eval p row = .error err := by
          rw [eval_undecided rfl h ht, hx, error_bind]
        rw [Lambda.test_of_eq_error (eval_foldl_of_error hand)]
        rfl
      | ok v =>
        obtain ⟨u, rfl⟩ := (hes x List.mem_cons_self).eq_ofTruth_of_eval hx
        rw [ih htail (eval_junction rfl h hx), scan_ofTruth]
        rcases t with _ | _ | _
        · rcases u with _ | _ | _ <;> rfl
        · exact absurd rfl ht
        · rcases u with _ | _ | _ <;> rfl

theorem test_joined_and {es : List Expr} (hes : ∀ x ∈ es, x.IsTest) :
    Lambda.test ⟨p, (joined .and es).getD .alwaysTrue⟩ row = scan true (es.map (eval p row)) := by
  cases es with
  | nil => rfl
  | cons e es =>
    have htail : ∀ x ∈ es, x.IsTest := fun x hx => hes x (List.mem_cons_of_mem e hx)
    rw [List.map_cons]
    show Lambda.test ⟨p, es.foldl (.binary .and) e⟩ row = _
    cases he : e.eval p row with
    | error err =>
      rw [Lambda.test_of_eq_error (eval_foldl_of_error he)]
      rfl
    | ok v =>
      obtain ⟨t, rfl⟩ := (hes e List.mem_cons_self).eq_ofTruth_of_eval he
      rw [test_foldl_and htail he, scan_ofTruth, Bool.true_and]

/-! ## Lists of filters -/

variable {s : Schema} {o : Options} {id : Nat} {root : Ty} {ds : List Descriptor} {l : Lambda}

def rootParam (o : Options) (id : Nat) (root : Ty) : Param := ⟨id, o.filterRoot, root⟩

def applied (ds : List Descriptor) : List Descriptor := ds.filter (·.operator != .none)

def valueOn (s : Schema) (o : Options) (p : Param) (row : Value) (d : Descriptor) :
    Except Error Value := do
  (← predicate s o.separator p d).eval p row

theorem compile_eq_ok : compile s o id root ds = .ok l ↔ ∃ es,
    List.Forall₂ (fun d e => predicate s o.separator (rootParam o id root) d = .ok e) (applied ds)
      es ∧ l = ⟨rootParam o id root, (joined .and es).getD .alwaysTrue⟩ := by
  unfold compile
  simp only [bind_eq_ok, mapM_eq_ok, pure_eq_ok, Except.ok.injEq]
  constructor
  · rintro ⟨es, hes, x, hx, rfl⟩
    exact ⟨es, hes, by rw [eq_joined_of_fold hx]; rfl⟩
  · rintro ⟨es, hes, rfl⟩
    have htests : ∀ e ∈ es, e.ty = .bool := by
      intro e he
      obtain ⟨d, hd⟩ := exists_of_forall₂ hes.flip he
      exact (isTest_of_predicate_eq_ok hd).ty
    exact ⟨es, hes, _, fold_eq_ok (d := false) rfl htests, rfl⟩

/-- A list compiles when each filter that is applied has a predicate. -/
theorem exists_compile_eq_ok_iff : (∃ l, compile s o id root ds = .ok l) ↔
    ∀ d ∈ applied ds, ∃ e, predicate s o.separator (rootParam o id root) d = .ok e := by
  simp only [compile_eq_ok]
  constructor
  · rintro ⟨l, es, hes, -⟩ d hd
    exact exists_of_forall₂ hes hd
  · intro h
    obtain ⟨es, hes⟩ := exists_mapM_eq_ok h
    exact ⟨_, es, mapM_eq_ok.1 hes, rfl⟩

theorem compile_singleton {d : Descriptor} (hd : d.operator ≠ .none) :
    compile s o id root [d] =
      (predicate s o.separator (rootParam o id root) d).map (⟨rootParam o id root, ·⟩) := by
  have happlied : [d].filter (·.operator != .none) = [d] := by simp [hd]
  unfold compile
  dsimp only
  rw [happlied, List.mapM_cons, List.mapM_nil]
  show _ = (predicate s o.separator ⟨id, o.filterRoot, root⟩ d).map _
  cases predicate s o.separator ⟨id, o.filterRoot, root⟩ d <;> rfl

/-- A compiled list answers as the scan of its filters' values does. -/
theorem test_eq_scan (h : compile s o id root ds = .ok l) (row : Value) :
    l.test row = scan true ((applied ds).map (valueOn s o (rootParam o id root) row)) ∧
      Truths ((applied ds).map (valueOn s o (rootParam o id root) row)) := by
  obtain ⟨es, hes, rfl⟩ := compile_eq_ok.1 h
  have htests : ∀ e ∈ es, e.IsTest := by
    intro e he
    obtain ⟨d, hd⟩ := exists_of_forall₂ hes.flip he
    exact isTest_of_predicate_eq_ok hd
  have hvalues : (applied ds).map (valueOn s o (rootParam o id root) row) =
      es.map (eval (rootParam o id root) row) := by
    rw [← List.forall₂_eq_eq_eq, List.forall₂_map_left_iff, List.forall₂_map_right_iff]
    refine hes.imp fun d e hd => ?_
    rw [valueOn, hd, ok_bind]
  rw [hvalues]
  refine ⟨test_joined_and htests, fun x hx v hv => ?_⟩
  obtain ⟨e, he, rfl⟩ := List.mem_map.1 hx
  exact (htests e he).eq_ofTruth_of_eval hv

/-- **What a compiled list of filters answers.** On any row, also one of other types than the root's,
it scans the values of the filters that have an operator: an error ends the scan with that error and
false with the answer false, true and null go on, and at the end the answer is whether all values were
true. The values are true, false and null only. A list in another order compiles too, and answers
the same on every row on which no filter fails. -/
theorem test_compile (h : compile s o id root ds = .ok l) :
    (∀ row, l.test row = scan true ((applied ds).map (valueOn s o (rootParam o id root) row)) ∧
      (∀ d ∈ applied ds, ∀ v, valueOn s o (rootParam o id root) row d = .ok v →
        v = .null ∨ ∃ b, v = .bool b) ∧
      (l.test row = .ok true ↔
        ∀ d ∈ applied ds, valueOn s o (rootParam o id root) row d = .ok (.bool true))) ∧
    ∀ ds', ds.Perm ds' → ∃ l', compile s o id root ds' = .ok l' ∧
      ∀ row, (∀ d ∈ applied ds, ∃ v, valueOn s o (rootParam o id root) row d = .ok v) →
        l'.test row = l.test row := by
  refine ⟨fun row => ?_, fun ds' hperm => ?_⟩
  · obtain ⟨hscan, htruths⟩ := test_eq_scan h row
    refine ⟨hscan, fun d hd v hv => ?_, ?_⟩
    · obtain ⟨t, rfl⟩ := htruths _ (List.mem_map_of_mem hd) v hv
      cases t with
      | none => exact .inl rfl
      | some b => exact .inr ⟨b, rfl⟩
    · rw [hscan, scan_eq_ok_true_iff, List.forall_mem_map]
      exact and_iff_right rfl
  · have happlied : (applied ds).Perm (applied ds') := hperm.filter _
    obtain ⟨l', hl'⟩ : ∃ l', compile s o id root ds' = .ok l' := by
      refine exists_compile_eq_ok_iff.2 fun d hd => ?_
      exact exists_compile_eq_ok_iff.1 ⟨l, h⟩ d (happlied.mem_iff.2 hd)
    refine ⟨l', hl', fun row hok => ?_⟩
    obtain ⟨hscan, htruths⟩ := test_eq_scan h row
    rw [(test_eq_scan hl' row).1, hscan]
    refine scan_eq_of_perm (happlied.map _) htruths fun x hx => ?_
    obtain ⟨d, hd, rfl⟩ := List.mem_map.1 hx
    exact hok d hd

/-! ## Filters of persons -/

/-- The second filter has no operator, so its property need not exist. -/
def cardFilters : List Descriptor :=
  [⟨"Card.Owner.Age", .greaterOrEqual, some "18"⟩, ⟨"Nickname", .none, none⟩,
    ⟨"Card", .isNotEmpty, none⟩]

def cardOf : Expr := .field (.param person) "Card" (.nullable (.record "Card"))

/-- The written form is `x => ((x.Card.Owner.Age >= (int?)18) && !(x.Card == (Card?)null))`. -/
def cardLambda : Lambda :=
  ⟨person, .binary .and
    (.binary .greaterOrEqual ageOfOwner (constantExpr (.int 18) (.nullable .int)))
    (.not (.binary .equal cardOf (constantExpr .null (.nullable (.record "Card")))))⟩

theorem compile_cardFilters :
    compile people {} 1 (.record "Person") cardFilters = .ok cardLambda := rfl

/-- A guest has a card; what is no record has no owner. -/
theorem cardLambda_guest :
    compile people {} 1 (.record "Person") cardFilters = .ok cardLambda ∧
    cardLambda.test guest = .ok true ∧
    cardLambda.test (.record [("Card", .string "lost")]) =
      .error (.evaluation (.notReadable "Owner" "lost")) ∧
    ∃ l', compile people {} 1 (.record "Person") cardFilters.reverse = .ok l' ∧
      l'.test guest = .ok true := by
  obtain ⟨hrows, horder⟩ := test_compile compile_cardFilters
  obtain ⟨l', hl', hsame⟩ := horder cardFilters.reverse (List.reverse_perm _).symm
  have hguest : cardLambda.test guest = .ok true := (hrows guest).1.trans rfl
  refine ⟨compile_cardFilters, hguest, (hrows _).1.trans rfl, l', hl', ?_⟩
  rw [hsame guest ?_, hguest]
  intro d hd
  rcases List.mem_cons.1 (show d ∈ [cardFilters[0], cardFilters[2]] from hd) with rfl | hd
  · exact ⟨.bool true, rfl⟩
  · rw [List.mem_singleton.1 hd]
    exact ⟨.bool true, rfl⟩

end Filter

end RecordQuery
