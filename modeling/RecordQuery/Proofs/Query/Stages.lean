import RecordQuery.Proofs.Outcome
import RecordQuery.Query

/-!
# Rows and stages of queries

A query sends one row after the other through all its stages. Its result can also be read stage by
stage: the stages after some point are a query over the result of those before.

* `Query.through` : the query over some rows with some stages, added one after the other;
* `runStages_filter`, `runStages_select` : what becomes of a row in one stage;
* `runRows_eq`, `runRows_mono`, `exists_runRows_eq_ok` : the rows of a query one by one;
* `toList_eq_results` : the result collects what becomes of the rows;
* `runStages_append`, `runRows_append` : the stages after some point, for one row and for all of them;
* `survives`, `runRows_eq_ok_iff` : the rows of a result are those that come through, in their order;
* `runRows_eq_error` : the error is the one of the first row that has one;
* `runRows_filter_eq_ok`, `runRows_select` : all rows through one stage;
* `toList_through_append` : all of this for a query.
-/

namespace RecordQuery.Query

/-! ## Stages added one after the other -/

def through (rows : List Value) (stages : List Stage) : Query := stages.foldl addStage (ofRows rows)

theorem foldl_addStage (q : Query) (stages : List Stage) :
    stages.foldl addStage q = ⟨q.rows, q.stages ++ stages⟩ := by
  induction stages generalizing q with
  | nil => rw [List.foldl_nil, List.append_nil]
  | cons stage stages ih => rw [List.foldl_cons, ih, addStage, List.append_assoc, List.singleton_append]

theorem toList_through (rows : List Value) (stages : List Stage) :
    (through rows stages).toList = runRows stages rows := by
  rw [through, foldl_addStage]
  rfl

/-! ## One stage -/

def kept (row : Value) (answer : Except Error Bool) : Except Error (Option Value) :=
  answer.map fun b => if b then some row else none

theorem runStages_filter (row : Value) (l : Lambda) :
    runStages row [.filter l] = kept row (l.test row) := by
  rw [runStages]
  cases l.test row with
  | error e => rfl
  | ok b => cases b <;> rfl

theorem runStages_select (row : Value) (l : Lambda) :
    runStages row [.select l] = (l.invoke row).map some := by
  rw [runStages]
  cases l.invoke row <;> rfl

/-! ## Rows one by one -/

variable {stages : List Stage} {row : Value} {rows result : List Value}

/-- The rows go through the stages one by one, and those that come through are kept. -/
theorem runRows_eq (stages : List Stage) (rows : List Value) :
    runRows stages rows = (rows.mapM (runStages · stages)).map (List.filterMap id) := by
  induction rows with
  | nil => rfl
  | cons row rows ih =>
    rw [runRows, List.mapM_cons, ih]
    cases runStages row stages with
    | error e => rfl
    | ok x => cases x <;> cases rows.mapM (runStages · stages) <;> rfl

/-- A query that does the same as another on each row on which that one succeeds has its result. -/
theorem runRows_mono (stages stages' : List Stage) {rows result : List Value}
    (h : ∀ row ∈ rows, ∀ x, runStages row stages = .ok x → runStages row stages' = .ok x)
    (hrows : runRows stages rows = .ok result) : runRows stages' rows = .ok result := by
  rw [runRows_eq] at hrows ⊢
  obtain ⟨xs, hxs, rfl⟩ := map_eq_ok.1 hrows
  have hagree : rows.mapM (runStages · stages') = rows.mapM (runStages · stages) := by
    refine mapM_congr fun row hrow => ?_
    obtain ⟨x, hx⟩ := exists_of_forall₂ (mapM_eq_ok.1 hxs) hrow
    rw [hx, h row hrow x hx]
  rw [hagree, hxs]
  rfl

theorem exists_runRows_eq_ok (stages : List Stage) {rows : List Value}
    (h : ∀ row ∈ rows, ∃ x, runStages row stages = .ok x) :
    ∃ result, runRows stages rows = .ok result := by
  obtain ⟨xs, hxs⟩ := exists_mapM_eq_ok h
  exact ⟨xs.filterMap id, by rw [runRows_eq, hxs]; rfl⟩

theorem toList_eq_results (q : Query) : q.toList = q.results.mapM id := by
  obtain ⟨rows, stages⟩ := q
  show runRows stages rows = (results ⟨rows, stages⟩).mapM id
  induction rows with
  | nil => rfl
  | cons row rows ih =>
    rw [runRows, ih, results, results, List.filterMap_cons]
    cases runStages row stages with
    | error e => rfl
    | ok x =>
      cases x with
      | none => rfl
      | some v => rw [List.mapM_cons]; rfl

theorem runRows_cons_eq_ok : runRows stages (row :: rows) = .ok result ↔
    (∃ v rest, runStages row stages = .ok (some v) ∧ runRows stages rows = .ok rest ∧
      result = v :: rest) ∨
    runStages row stages = .ok none ∧ runRows stages rows = .ok result := by
  rw [runRows, bind_eq_ok]
  constructor
  · rintro ⟨x, hx, hrest⟩
    cases x with
    | none => exact .inr ⟨hx, hrest⟩
    | some v =>
      obtain ⟨rest, hrest, hresult⟩ := bind_eq_ok.1 hrest
      exact .inl ⟨v, rest, hx, hrest, (Except.ok.inj hresult).symm⟩
  · rintro (⟨v, rest, hv, hrest, rfl⟩ | ⟨hnone, hrest⟩)
    · exact ⟨some v, hv, bind_eq_ok.2 ⟨rest, hrest, rfl⟩⟩
    · exact ⟨none, hnone, hrest⟩

/-! ## The stages after some point -/

/-- A row that comes through the first stages goes on through the others. -/
theorem runStages_append (row : Value) (first second : List Stage) :
    runStages row (first ++ second) =
      (runStages row first >>= fun x => x.elim (.ok none) (runStages · second)) := by
  induction first generalizing row with
  | nil => rfl
  | cons stage first ih =>
    cases stage with
    | filter predicate =>
      rw [List.cons_append, runStages, runStages]
      cases predicate.test row with
      | error e => rfl
      | ok b =>
        cases b with
        | true => exact ih row
        | false => rfl
    | select transform =>
      rw [List.cons_append, runStages, runStages]
      cases transform.invoke row with
      | error e => rfl
      | ok v => exact ih v

theorem runStages_append_eq_ok {first second : List Stage} {x : Option Value} :
    runStages row (first ++ second) = .ok x ↔
      (∃ v, runStages row first = .ok (some v) ∧ runStages v second = .ok x) ∨
        runStages row first = .ok none ∧ x = none := by
  rw [runStages_append, bind_eq_ok]
  constructor
  · rintro ⟨y, hy, hx⟩
    cases y with
    | none => exact .inr ⟨hy, (Except.ok.inj hx).symm⟩
    | some v => exact .inl ⟨v, hy, hx⟩
  · rintro (⟨v, hv, hx⟩ | ⟨hnone, rfl⟩)
    · exact ⟨some v, hv, hx⟩
    · exact ⟨none, hnone, rfl⟩

/-- **All rows through all stages, or through the stages before some point and then through the rest.**
The induction is on the rows; what each one meets at the two parts is `runStages_append_eq_ok`. -/
theorem runRows_append {first second : List Stage} : runRows (first ++ second) rows = .ok result ↔
    ∃ between, runRows first rows = .ok between ∧ runRows second between = .ok result := by
  induction rows generalizing result with
  | nil =>
    constructor
    · intro h
      exact ⟨[], rfl, h⟩
    · rintro ⟨between, hbetween, hresult⟩
      cases hbetween
      exact hresult
  | cons row rows ih =>
    simp only [runRows_cons_eq_ok, runStages_append_eq_ok]
    constructor
    · rintro (⟨w, rest, (⟨v, hv, hw⟩ | ⟨-, hw⟩), hrest, rfl⟩ | ⟨hdropped, hrest⟩)
      · obtain ⟨between, hbetween, hrest⟩ := ih.1 hrest
        refine ⟨v :: between, .inl ⟨v, between, hv, hbetween, rfl⟩, ?_⟩
        exact runRows_cons_eq_ok.2 (.inl ⟨w, rest, hw, hrest, rfl⟩)
      · cases hw
      · obtain ⟨between, hbetween, hrest⟩ := ih.1 hrest
        -- The row may be dropped by either part; only the second one has seen it then.
        rcases hdropped with ⟨v, hv, hnone⟩ | ⟨hnone, -⟩
        · refine ⟨v :: between, .inl ⟨v, between, hv, hbetween, rfl⟩, ?_⟩
          exact runRows_cons_eq_ok.2 (.inr ⟨hnone, hrest⟩)
        · exact ⟨between, .inr ⟨hnone, hbetween⟩, hrest⟩
    · rintro ⟨_, ⟨v, between, hv, hbetween, rfl⟩ | ⟨hnone, hbetween⟩, hresult⟩
      · rcases runRows_cons_eq_ok.1 hresult with ⟨w, rest, hw, hrest, rfl⟩ | ⟨hnone, hrest⟩
        · exact .inl ⟨w, rest, .inl ⟨v, hv, hw⟩, ih.2 ⟨between, hbetween, hrest⟩, rfl⟩
        · exact .inr ⟨.inl ⟨v, hv, hnone⟩, ih.2 ⟨between, hbetween, hrest⟩⟩
      · exact .inr ⟨.inr ⟨hnone, trivial⟩, ih.2 ⟨_, hbetween, hresult⟩⟩

/-! ## Which rows a result is made of -/

def survives (stages : List Stage) (row : Value) : Bool :=
  match runStages row stages with
  | .ok (some _) => true
  | _ => false

theorem survives_iff : survives stages row ↔ ∃ v, runStages row stages = .ok (some v) := by
  unfold survives
  split
  · rename_i v hv
    exact iff_of_true rfl ⟨v, hv⟩
  · rename_i hne
    refine iff_of_false Bool.false_ne_true ?_
    rintro ⟨v, hv⟩
    exact hne v hv

theorem not_survives_of_none (h : runStages row stages = .ok none) : ¬survives stages row := by
  rw [survives_iff, h]
  simp

/-- **A result has what became of the rows that come through, in their order**; there is one if no row
fails. -/
theorem runRows_eq_ok_iff : runRows stages rows = .ok result ↔
    (∀ row ∈ rows, ∃ x, runStages row stages = .ok x) ∧
      List.Forall₂ (fun row v => runStages row stages = .ok (some v))
        (rows.filter (survives stages)) result := by
  induction rows generalizing result with
  | nil =>
    rw [List.filter_nil, List.forall₂_nil_left_iff, runRows, Except.ok.injEq, eq_comm]
    simp
  | cons row rows ih =>
    rw [runRows_cons_eq_ok, List.forall_mem_cons]
    constructor
    · rintro (⟨v, rest, hv, hrest, rfl⟩ | ⟨hnone, hrest⟩)
      · obtain ⟨hok, hvalues⟩ := ih.1 hrest
        rw [List.filter_cons_of_pos (survives_iff.2 ⟨v, hv⟩)]
        exact ⟨⟨⟨some v, hv⟩, hok⟩, .cons hv hvalues⟩
      · obtain ⟨hok, hvalues⟩ := ih.1 hrest
        rw [List.filter_cons_of_neg (not_survives_of_none hnone)]
        exact ⟨⟨⟨none, hnone⟩, hok⟩, hvalues⟩
    · rintro ⟨⟨⟨x, hx⟩, hok⟩, hvalues⟩
      cases x with
      | none =>
        rw [List.filter_cons_of_neg (not_survives_of_none hx)] at hvalues
        exact .inr ⟨hx, ih.2 ⟨hok, hvalues⟩⟩
      | some v =>
        rw [List.filter_cons_of_pos (survives_iff.2 ⟨v, hx⟩)] at hvalues
        obtain ⟨w, rest, hw, hrest, rfl⟩ := List.forall₂_cons_left_iff.1 hvalues
        exact .inl ⟨w, rest, hw, ih.2 ⟨hok, hrest⟩, rfl⟩

/-- A query fails with the error of the first row on which its stages fail. -/
theorem runRows_eq_error {e : Error} : runRows stages rows = .error e ↔
    ∃ before row rest, rows = before ++ row :: rest ∧
      (∀ row' ∈ before, ∃ x, runStages row' stages = .ok x) ∧ runStages row stages = .error e := by
  rw [runRows_eq, ← mapM_eq_error]
  cases rows.mapM (runStages · stages) <;> simp [Except.map]

/-! ## Queries of one stage -/

theorem runRows_filter_eq_ok {l : Lambda} : runRows [.filter l] rows = .ok result ↔
    (∀ row ∈ rows, ∃ b, l.test row = .ok b) ∧
      result = rows.filter fun row => l.test row = .ok true := by
  induction rows generalizing result with
  | nil =>
    rw [runRows, Except.ok.injEq, eq_comm]
    simp
  | cons row rows ih =>
    rw [runRows_cons_eq_ok, runStages_filter, List.forall_mem_cons, List.filter_cons]
    cases l.test row with
    | error e => simp [kept, Except.map]
    | ok b => cases b <;> simp [kept, Except.map, ih, and_assoc]

theorem runRows_select (l : Lambda) (rows : List Value) :
    runRows [.select l] rows = rows.mapM l.invoke := by
  induction rows with
  | nil => rfl
  | cons row rows ih =>
    rw [runRows, List.mapM_cons, runStages_select, ih]
    cases l.invoke row <;> rfl

/-! ## Queries as a whole -/

/-- **The stages of a query compose.** A query through two lists of stages has a result exactly if the
first list has one and the second has this result over it. A result is made of the rows that come
through all stages, in their order, and holds what became of them; and when there is none, the error
is the one of the first row on which the stages fail. -/
theorem toList_through_append (rows : List Value) (first second : List Stage) :
    (∀ result, (through rows (first ++ second)).toList = .ok result ↔
      ∃ between, (through rows first).toList = .ok between ∧
        (through between second).toList = .ok result) ∧
    ∀ stages,
      (∀ result, (through rows stages).toList = .ok result ↔
        (∀ row ∈ rows, ∃ x, runStages row stages = .ok x) ∧
          List.Forall₂ (fun row v => runStages row stages = .ok (some v))
            (rows.filter (survives stages)) result) ∧
      ∀ e, (through rows stages).toList = .error e ↔ ∃ before row rest,
        rows = before ++ row :: rest ∧ (∀ row' ∈ before, ∃ x, runStages row' stages = .ok x) ∧
          runStages row stages = .error e := by
  simp only [toList_through]
  exact ⟨fun _ => runRows_append, fun _ => ⟨fun _ => runRows_eq_ok_iff, fun _ => runRows_eq_error⟩⟩

end RecordQuery.Query
