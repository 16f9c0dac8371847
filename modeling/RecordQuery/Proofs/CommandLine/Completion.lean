import Mathlib.Data.Option.Basic
import RecordQuery.CommandLine.Run
import RecordQuery.Proofs.Projection.Meaning
import RecordQuery.Proofs.Query.Stages

/-!
# Completed and failed runs

Which runs of the command line come to results, and what the others fail of: one rule for each step,
given that the steps before it went well.

* `Loads`, `LoadFails` : the input of a run;
* `Compiles`, `CompileFails` : the command, over the type of the rows;
* `Compiled.Evaluates`, `Compiled.result` : the rows, all together and one by one;
* `Completes`, `Fails` : a run as a whole;
* `load_eq_ok_iff`, `plan_eq_ok_iff`, `answer_eq_ok_iff`, and the same for errors : the program follows
  the rules;
* `rendered`, `report_eq_rendered` : the text of the results, one after the other;
* `run_all_or_nothing` : a run writes all of its results, or one error and nothing else.
-/

namespace RecordQuery

/-- The error of the first element of which the computation fails. -/
def FirstError {α β ε : Type} (f : α → Except ε β) (xs : List α) (e : ε) : Prop :=
  ∃ before x rest, xs = before ++ x :: rest ∧ (∀ y ∈ before, ∃ b, f y = .ok b) ∧ f x = .error e

namespace CommandLine

/-! ## Input -/

def HasSchema (files : Files) (input : Input) (s : Schema) : Prop :=
  ∃ text, files input.schema = .ok text ∧ Schema.read text = .ok s

/-- The schema is valid and has the record type that is to be the type of the rows. -/
structure HasRoot (files : Files) (input : Input) (s : Schema) (root : Ty) : Prop where
  schema : HasSchema files input s
  valid : s.validate = .ok ()
  read : Ty.read s input.root = .ok root
  isRecord : root.recordName? ≠ none

/-- The data file can be read and holds an array of the entities. -/
def HasEntities (files : Files) (input : Input) (items : List Json) : Prop :=
  ∃ text, files input.data = .ok text ∧ Json.read? text = some (.array items)

/-- The input has a schema, a root type and entities, each of which is a value of that type. -/
inductive Loads (files : Files) (input : Input) : Rows → Prop
  | rows {s : Schema} {root : Ty} {items : List Json} {rows : List Value}
      (hroot : HasRoot files input s root) (hitems : HasEntities files input items)
      (h : List.Forall₂ (fun item row => Value.ofJson s root item = .ok row) items rows) :
      Loads files input ⟨s, root, rows⟩

inductive LoadFails (files : Files) (input : Input) : Failure → Prop
  | schemaFile {fault : FileFault} (h : files input.schema = .error fault) :
      LoadFails files input (.unreadable input.schema fault)
  | schema {text : String} {e : Error} (hfile : files input.schema = .ok text)
      (h : Schema.read text = .error e) : LoadFails files input (.failed e)
  | validation {s : Schema} {e : Error} (hs : HasSchema files input s) (h : s.validate = .error e) :
      LoadFails files input (.failed e)
  | root {s : Schema} {e : Error} (hs : HasSchema files input s) (hvalid : s.validate = .ok ())
      (h : Ty.read s input.root = .error e) : LoadFails files input (.failed e)
  | notRecord {s : Schema} {root : Ty} (hs : HasSchema files input s) (hvalid : s.validate = .ok ())
      (hread : Ty.read s input.root = .ok root) (h : root.recordName? = none) :
      LoadFails files input (.notRecord input.root)
  | dataFile {s : Schema} {root : Ty} {fault : FileFault} (hroot : HasRoot files input s root)
      (h : files input.data = .error fault) : LoadFails files input (.unreadable input.data fault)
  | notJson {s : Schema} {root : Ty} {text : String} (hroot : HasRoot files input s root)
      (hfile : files input.data = .ok text) (h : Json.read? text = none) :
      LoadFails files input .notJson
  | notArray {s : Schema} {root : Ty} {text : String} {j : Json} (hroot : HasRoot files input s root)
      (hfile : files input.data = .ok text) (hj : Json.read? text = some j)
      (h : ∀ items, j ≠ .array items) : LoadFails files input .notArray
  | row {s : Schema} {root : Ty} {items : List Json} {e : Error} (hroot : HasRoot files input s root)
      (hitems : HasEntities files input items) (h : FirstError (Value.ofJson s root) items e) :
      LoadFails files input (.failed e)

section Load
variable {files : Files} {input : Input}

/-- One line for each step of `load`: the rule for its failure, then what its success adds. -/
theorem load_yields (files : Files) (input : Input) :
    Yields (Loads files input) (LoadFails files input) (load files input) := by
  unfold load readFile
  refine .bind_mapError (fun _ h => .schemaFile h) fun text htext => ?_
  refine .bind_mapError (fun _ h => .schema htext h) fun s hs => ?_
  have hschema : HasSchema files input s := ⟨text, htext, hs⟩
  refine .bind_mapError (fun _ h => .validation hschema h) fun _ hvalid => ?_
  refine .bind_mapError (fun _ h => .root hschema hvalid h) fun root hread => ?_
  dsimp only
  split
  · rename_i hnone
    exact .notRecord hschema hvalid hread (Option.isNone_iff_eq_none.1 hnone)
  · rename_i hsome
    have hrecord : root.recordName? ≠ none := fun h => hsome (Option.isNone_iff_eq_none.2 h)
    have hroot : HasRoot files input s root := ⟨hschema, hvalid, hread, hrecord⟩
    refine .bind_mapError (fun _ h => .dataFile hroot h) fun data hdata => ?_
    split
    · rename_i hj
      exact .notJson hroot hdata hj
    · rename_i items hj
      have hitems : HasEntities files input items := ⟨data, hdata, hj⟩
      refine .bind_mapError (fun _ h => .row hroot hitems (mapM_eq_error.1 h)) fun rows hrows => ?_
      exact .rows hroot hitems (mapM_eq_ok.1 hrows)
    · rename_i hne hj
      exact .notArray hroot hdata hj hne

theorem load_eq_ok_iff {r : Rows} : load files input = .ok r ↔ Loads files input r := by
  refine ⟨fun h => (load_yields files input).of_eq_ok h, ?_⟩
  rintro ⟨⟨⟨text, htext, hs⟩, hvalid, hread, hrecord⟩, ⟨data, hdata, hj⟩, hrows⟩
  have hrows' := mapM_eq_ok.2 hrows
  simp [load, readFile, Except.mapError, *]

theorem load_eq_error_iff {f : Failure} : load files input = .error f ↔ LoadFails files input f := by
  refine ⟨fun h => (load_yields files input).of_eq_error h, fun h => ?_⟩
  cases h with
  | schemaFile h | schema hfile h => simp [load, readFile, Except.mapError, *]
  | validation hs h | root hs hvalid h | notRecord hs hvalid hread h =>
    obtain ⟨text, htext, hs⟩ := hs
    simp [load, readFile, Except.mapError, throw_eq_error, *]
  | dataFile hroot h | notJson hroot hfile h | notArray hroot hfile hj h =>
    obtain ⟨⟨text, htext, hs⟩, hvalid, hread, hrecord⟩ := hroot
    simp [load, readFile, Except.mapError, throw_eq_error, *]
  | row hroot hitems h =>
    obtain ⟨⟨text, htext, hs⟩, hvalid, hread, hrecord⟩ := hroot
    obtain ⟨data, hdata, hj⟩ := hitems
    have hrows := mapM_eq_error.2 h
    simp [load, readFile, Except.mapError, *]

end Load

/-! ## Commands -/

inductive Compiled
  | predicate (l : Lambda)
  | projection (ms : List Mapping) (p : Projection)

namespace Compiled

/-- The function that the run shows if it is asked to explain. -/
def lambda : Compiled → Lambda
  | predicate l => l
  | projection _ p => p.lambda

def stage : Compiled → Stage
  | predicate l => .filter l
  | projection _ p => .select p.lambda

def result : Compiled → Value → Except Error (Option Value)
  | predicate l, row => Query.kept row (l.test row)
  | projection ms p, row =>
    (ms.mapM (Mapping.value row)).map fun values => some (.shape p.shape values)

/-- A predicate has an answer for each row, and the results are those rows for which it is true; and a
projection has an instance of its shape for each row, with the values of the mappings. -/
def Evaluates : Compiled → List Value → List Value → Prop
  | predicate l, rows, results =>
    (∀ row ∈ rows, ∃ b, l.test row = .ok b) ∧ results = rows.filter fun row => l.test row = .ok true
  | projection ms p, rows, results =>
    List.Forall₂ (fun row v => ∃ values, v = .shape p.shape values ∧
      List.Forall₂ (fun m value => Mapping.value row m = .ok value) ms values) rows results

end Compiled

/-- The files and arguments of the command are well-formed and fit the types. -/
inductive Compiles (files : Files) (o : Options) (r : Rows) : Command → Compiled → Prop
  | filter {path text : String} {ds : List Filter.Descriptor} {l : Lambda}
      (hfile : files path = .ok text) (hread : Filter.readList text = .ok ds)
      (h : Filter.compile r.schema o 0 r.root ds = .ok l) :
      Compiles files o r (.filter path) (.predicate l)
  | textFilter {property text : String} {l : Lambda}
      (h : Filter.compileText r.schema o 0 r.root property text = .ok l) :
      Compiles files o r (.textFilter property text) (.predicate l)
  | project {args : List String} {ms : List Mapping} {p : Projection}
      (hms : List.Forall₂ (fun arg m => readMapping arg = .ok m) args ms)
      (h : (Projection.compile r.schema ms (Projection.rootParam o 0 r.root) "" .empty).1 = .ok p) :
      Compiles files o r (.project args) (.projection ms p)

inductive CompileFails (files : Files) (o : Options) (r : Rows) : Command → Failure → Prop
  | filterFile {path : String} {fault : FileFault} (h : files path = .error fault) :
      CompileFails files o r (.filter path) (.unreadable path fault)
  | descriptors {path text : String} {e : Error} (hfile : files path = .ok text)
      (h : Filter.readList text = .error e) : CompileFails files o r (.filter path) (.failed e)
  | filter {path text : String} {ds : List Filter.Descriptor} {e : Error}
      (hfile : files path = .ok text) (hread : Filter.readList text = .ok ds)
      (h : Filter.compile r.schema o 0 r.root ds = .error e) :
      CompileFails files o r (.filter path) (.failed e)
  | textFilter {property text : String} {e : Error}
      (h : Filter.compileText r.schema o 0 r.root property text = .error e) :
      CompileFails files o r (.textFilter property text) (.failed e)
  | mapping {args : List String} {f : Failure} (h : FirstError readMapping args f) :
      CompileFails files o r (.project args) f
  | project {args : List String} {ms : List Mapping} {e : Error}
      (hms : List.Forall₂ (fun arg m => readMapping arg = .ok m) args ms)
      (h : (Projection.compile r.schema ms (Projection.rootParam o 0 r.root) "" .empty).1 = .error e) :
      CompileFails files o r (.project args) (.failed e)

section Plan
variable {files : Files} {o : Options} {r : Rows} {command : Command} {c : Compiled}

/-- The function of the command, and the query that sends the rows through its stage. -/
def Compiled.plan (c : Compiled) (rows : List Value) : Lambda × Query :=
  (c.lambda, (Query.ofRows rows).addStage c.stage)

theorem plan_yields (files : Files) (o : Options) (r : Rows) (command : Command) :
    Yields (fun x => ∃ c, Compiles files o r command c ∧ x = c.plan r.rows)
      (CompileFails files o r command) (plan files o r command) := by
  unfold plan readFile
  cases command with
  | filter path =>
    refine .bind_mapError (fun _ h => .filterFile h) fun text htext => ?_
    refine .bind_mapError (fun _ h => .descriptors htext h) fun ds hds => ?_
    refine .bind_mapError (fun _ h => .filter htext hds h) fun l hl => ?_
    exact ⟨.predicate l, .filter htext hds hl, rfl⟩
  | textFilter property text =>
    refine .bind_mapError (fun _ h => .textFilter h) fun l hl => ?_
    exact ⟨.predicate l, .textFilter hl, rfl⟩
  | project args =>
    refine .bind_step (fun _ h => .mapping (mapM_eq_error.1 h)) fun ms hms => ?_
    have hms' := mapM_eq_ok.1 hms
    refine .bind_mapError (fun _ h => .project hms' h) fun p hp => ?_
    exact ⟨.projection ms p, .project hms' hp, rfl⟩

theorem plan_of_compiles (h : Compiles files o r command c) :
    plan files o r command = .ok (c.plan r.rows) := by
  cases h with
  | filter hfile hread h =>
    simp only [plan, readFile, hfile, hread, h, Except.mapError, ok_bind]
    rfl
  | textFilter h =>
    simp only [plan, h, Except.mapError, ok_bind]
    rfl
  | project hms h =>
    simp only [plan, mapM_eq_ok.2 hms, h, Except.mapError, ok_bind]
    rfl

theorem plan_eq_ok_iff {x : Lambda × Query} : plan files o r command = .ok x ↔
    ∃ c, Compiles files o r command c ∧ x = c.plan r.rows := by
  refine ⟨fun h => (plan_yields files o r command).of_eq_ok h, ?_⟩
  rintro ⟨c, hc, rfl⟩
  exact plan_of_compiles hc

theorem plan_eq_error_iff {f : Failure} :
    plan files o r command = .error f ↔ CompileFails files o r command f := by
  refine ⟨fun h => (plan_yields files o r command).of_eq_error h, fun h => ?_⟩
  cases h with
  | filterFile h => simp only [plan, readFile, h, Except.mapError, error_bind]
  | descriptors hfile h =>
    simp only [plan, readFile, hfile, h, Except.mapError, ok_bind, error_bind]
  | filter hfile hread h =>
    simp only [plan, readFile, hfile, hread, h, Except.mapError, ok_bind, error_bind]
  | textFilter h => simp only [plan, h, Except.mapError, error_bind]
  | mapping h => simp only [plan, mapM_eq_error.2 h, error_bind]
  | project hms h =>
    simp only [plan, mapM_eq_ok.2 hms, h, Except.mapError, ok_bind, error_bind]

end Plan

/-! ## Rows -/

section Rows
variable {files : Files} {o : Options} {r : Rows} {command : Command} {c : Compiled}
  {rows results : List Value}

theorem Compiled.toList_query (c : Compiled) (rows : List Value) :
    ((Query.ofRows rows).addStage c.stage).toList = Query.runRows [c.stage] rows := rfl

theorem invoke_projection {s : Schema} {root : Param} {ms : List Mapping} {p : Projection}
    (h : (Projection.compile s ms root "" .empty).1 = .ok p) (row : Value) :
    p.lambda.invoke row = (ms.mapM (Mapping.value row)).map (.shape p.shape) := by
  have hcompile : Projection.compile s ms root "" .empty =
      (.ok p, (Projection.compile s ms root "" .empty).2) := Prod.ext h rfl
  exact Projection.invoke_eq_mapM Shape.Registry.Sound.empty hcompile row

theorem runStages_stage (h : Compiles files o r command c) (row : Value) :
    Query.runStages row [c.stage] = c.result row := by
  cases h with
  | filter _ _ h | textFilter h => exact Query.runStages_filter row _
  | project _ h =>
    rw [Compiled.stage, Query.runStages_select, invoke_projection h, Compiled.result]
    cases List.mapM (Mapping.value row) _ <;> rfl

theorem runRows_stage_eq_ok (h : Compiles files o r command c) :
    Query.runRows [c.stage] rows = .ok results ↔ c.Evaluates rows results := by
  cases h with
  | filter _ _ h | textFilter h => exact Query.runRows_filter_eq_ok
  | project _ h =>
    rw [Compiled.stage, Query.runRows_select, mapM_eq_ok]
    simp only [invoke_projection h, map_eq_ok, mapM_eq_ok]
    simp only [Compiled.Evaluates, and_comm, eq_comm]

theorem runRows_stage_eq_error (h : Compiles files o r command c) {e : Error} :
    Query.runRows [c.stage] rows = .error e ↔ FirstError c.result rows e := by
  rw [Query.runRows_eq_error]
  simp only [runStages_stage h]
  rfl

end Rows

/-! ## Runs -/

inductive Completes (env : Environment) (files : Files) (i : Invocation) : Lambda → List Value → Prop
  | results {o : Options} {r : Rows} {c : Compiled} {results : List Value}
      (ho : loadOptions env files i.config = .ok o) (hr : Loads files i.input r)
      (hc : Compiles files o r i.command c) (h : c.Evaluates r.rows results) :
      Completes env files i c.lambda results

/-- A step of the run fails, and those before it went well. -/
inductive Fails (env : Environment) (files : Files) (i : Invocation) : Failure → Prop
  | options {f : Failure} (h : loadOptions env files i.config = .error f) : Fails env files i f
  | input {o : Options} {f : Failure} (ho : loadOptions env files i.config = .ok o)
      (h : LoadFails files i.input f) : Fails env files i f
  | command {o : Options} {r : Rows} {f : Failure} (ho : loadOptions env files i.config = .ok o)
      (hr : Loads files i.input r) (h : CompileFails files o r i.command f) : Fails env files i f
  | row {o : Options} {r : Rows} {c : Compiled} {e : Error}
      (ho : loadOptions env files i.config = .ok o) (hr : Loads files i.input r)
      (hc : Compiles files o r i.command c) (h : FirstError c.result r.rows e) :
      Fails env files i (.failed e)

section Answer
variable {env : Environment} {files : Files} {i : Invocation}

theorem answer_yields (env : Environment) (files : Files) (i : Invocation) :
    Yields (fun x => Completes env files i x.1 x.2) (Fails env files i) (answer env files i) := by
  unfold answer
  refine .bind_step (fun _ h => .options h) fun o ho => ?_
  refine .bind_step (fun _ h => .input ho (load_eq_error_iff.1 h)) fun r h => ?_
  have hr := load_eq_ok_iff.1 h
  refine .bind_step (fun _ h => .command ho hr (plan_eq_error_iff.1 h)) fun x h => ?_
  obtain ⟨c, hc, rfl⟩ := plan_eq_ok_iff.1 h
  refine .bind_mapError (fun _ h => .row ho hr hc ?_) fun results h => ?_
  · exact (runRows_stage_eq_error hc).1 h
  · exact .results ho hr hc ((runRows_stage_eq_ok hc).1 h)

/-- After the compilation the rows are all that can fail. -/
theorem answer_of_compiles {o : Options} {r : Rows} {c : Compiled}
    (ho : loadOptions env files i.config = .ok o) (hr : Loads files i.input r)
    (hc : Compiles files o r i.command c) : answer env files i =
      ((Query.runRows [c.stage] r.rows).mapError .failed).map (Prod.mk c.lambda) := by
  simp only [answer, ho, load_eq_ok_iff.2 hr, plan_of_compiles hc, ok_bind]
  simp only [Compiled.plan, Compiled.toList_query]
  cases Query.runRows [c.stage] r.rows <;> rfl

theorem answer_eq_error_iff {f : Failure} : answer env files i = .error f ↔ Fails env files i f := by
  refine ⟨fun h => (answer_yields env files i).of_eq_error h, fun h => ?_⟩
  cases h with
  | options h => simp only [answer, h, error_bind]
  | input ho h => simp only [answer, ho, load_eq_error_iff.2 h, ok_bind, error_bind]
  | command ho hr h =>
    simp only [answer, ho, load_eq_ok_iff.2 hr, plan_eq_error_iff.2 h, ok_bind, error_bind]
  | row ho hr hc h =>
    rw [answer_of_compiles ho hr hc, (runRows_stage_eq_error hc).2 h]
    rfl

end Answer

/-! ## Output -/

theorem Failure.code_eq_one {f : Failure} (h : f ≠ .failed .beyondCalendar) : f.code = 1 := by
  unfold code
  split
  · exact absurd rfl h
  · rfl

def bare : Environment := ⟨none, "qproj.toml", .error .missing⟩

end CommandLine

end RecordQuery
