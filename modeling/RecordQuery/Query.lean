import RecordQuery.Projection

/-!
# Queries

* `Query`: rows and the stages that each row goes through;
* `Query.runStages`: what becomes of one row;
* `Query.results`: what becomes of the rows, errors included;
* `Query.toList`: the rows that come through, or the first error;
* `Query.text`: the written form, one stage a line.
-/

namespace RecordQuery

inductive Stage
  | filter (predicate : Lambda)
  /-- Puts the value of the function in place of the row. -/
  | select (transform : Lambda)

/-- Rows and the stages that each row goes through. -/
structure Query where
  rows : List Value
  stages : List Stage

namespace Query

def ofRows (rows : List Value) : Query := ⟨rows, []⟩

def addStage (q : Query) (stage : Stage) : Query := { q with stages := q.stages ++ [stage] }

def filter (q : Query) (predicate : Lambda) : Query := q.addStage (.filter predicate)

def select (q : Query) (transform : Lambda) : Query := q.addStage (.select transform)

def project (q : Query) (p : Projection) : Query := q.select p.lambda

/-- What becomes of a row: a value, nothing, or an error. -/
def runStages (row : Value) : List Stage → Except Error (Option Value)
  | [] => .ok (some row)
  | .filter predicate :: stages => do
    if ← predicate.test row then runStages row stages else return none
  | .select transform :: stages => do runStages (← transform.invoke row) stages

def results (q : Query) : List (Except Error Value) :=
  q.rows.filterMap fun row =>
    match runStages row q.stages with
    | .ok (some value) => some (.ok value)
    | .ok none => none
    | .error e => some (.error e)

def runRows (stages : List Stage) : List Value → Except Error (List Value)
  | [] => .ok []
  | row :: rows => do
    match ← runStages row stages with
    | some value =>
      let values ← runRows stages rows
      return value :: values
    | none => runRows stages rows

/-- The values that come of the rows, in their order, or the error of the first row that has one. -/
def toList (q : Query) : Except Error (List Value) := runRows q.stages q.rows

def text (q : Query) : String :=
  q.stages.foldl (fun text stage =>
      text ++ match stage with
        | .filter predicate => "\n  .filter(" ++ predicate.text ++ ")"
        | .select transform => "\n  .select(" ++ transform.text ++ ")")
    s!"rows({q.rows.length})"

end Query

end RecordQuery
