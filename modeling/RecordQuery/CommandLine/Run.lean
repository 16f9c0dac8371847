import RecordQuery.CommandLine.Arguments
import RecordQuery.CommandLine.Files
import RecordQuery.Filter.Compile
import RecordQuery.Options.Document
import RecordQuery.Query
import RecordQuery.Schema.Document
import RecordQuery.Value.Json

/-!
# Runs of the command line

* `Environment`: what a run finds besides its arguments and files;
* `Failure`: why a run fails;
* `load`, `answer`, `report`: the input of a run, the function and the rows it leads to, and their
  text;
* `run`: the outcome of a run.

A run writes its rows only when all of them are known.
-/

namespace RecordQuery.CommandLine

structure Environment where
  /-- The variable that stands in for the switch `config`. -/
  configVariable : Option String
  /-- The path of the user's options, which are used where no others are named. -/
  userConfig : String
  userOptions : Except FileFault String

structure Outcome where
  code : Nat
  output : String
  errors : String
  deriving DecidableEq, Repr

inductive Failure
  | unreadableOptions (path : String) (fault : FileFault)
  | options (path : String) (fault : Options.Fault)
  | unreadable (path : String) (fault : FileFault)
  | notRecord (root : String)
  | notJson
  | notArray
  | malformedMapping (arg : String)
  | failed (e : Error)

namespace Failure

def message : Failure → String
  | .unreadableOptions path fault => s!"failed to read config {path}: {fault.message}"
  | .options path fault => fault.message path
  | .unreadable path fault => s!"failed to read {path}: {fault.message}"
  | .notRecord root => s!"root type '{root}' is not a record"
  | .notJson => "json"
  | .notArray => "data file must contain a JSON array"
  | .malformedMapping arg => s!"mapping '{arg}' must look like TO=FROM"
  | .failed e => e.text

/-- The exit code; an instant beyond the calendar aborts the run. -/
def code : Failure → Nat
  | .failed .beyondCalendar => 101
  | _ => 1

def outcome (f : Failure) : Outcome := ⟨f.code, "", s!"error: {f.message}\n"⟩

end Failure

/-! ## Input -/

def readOptions (path : String) (contents : Except FileFault String) : Except Failure Options := do
  let text ← contents.mapError (.unreadableOptions path)
  (Options.read text).mapError (.options path)

/-- The options of a run: those of the file that it names, else those of the user, if any. -/
def loadOptions (env : Environment) (files : Files) (config : Option String) :
    Except Failure Options :=
  match config, env.userOptions with
  | some path, _ => readOptions path (files path)
  | none, .error .missing | none, .error .notDirectory => .ok {}
  | none, contents => readOptions env.userConfig contents

def readFile (files : Files) (path : String) : Except Failure String :=
  (files path).mapError (.unreadable path)

structure Rows where
  schema : Schema
  root : Ty
  rows : List Value

def load (files : Files) (input : Input) : Except Failure Rows := do
  let schema ← (Schema.read (← readFile files input.schema)).mapError .failed
  schema.validate.mapError .failed
  let root ← (Ty.read schema input.root).mapError .failed
  if root.recordName?.isNone then throw (.notRecord input.root)
  match Json.read? (← readFile files input.data) with
  | none => throw .notJson
  | some (.array items) =>
    return ⟨schema, root, ← (items.mapM (Value.ofJson schema root)).mapError .failed⟩
  | some _ => throw .notArray

/-! ## Answers -/

/-- The mapping that an argument `TO=FROM` describes; blanks around the two parts do not count. -/
def readMapping (arg : String) : Except Failure Mapping :=
  let cs := arg.toList
  let name := Text.trimChars (cs.takeWhile (· != '='))
  let path := Text.trimChars ((cs.dropWhile (· != '=')).drop 1)
  if name.isEmpty || path.isEmpty then .error (.malformedMapping arg)
  else .ok (.direct (.ofList name) (.ofList path))

/-- The function that a command stands for, and the query that applies it to the rows. -/
def plan (files : Files) (o : Options) (r : Rows) : Command → Except Failure (Lambda × Query)
  | .filter path => do
    let text ← readFile files path
    let descriptors ← (Filter.readList text).mapError .failed
    let predicate ← (Filter.compile r.schema o 0 r.root descriptors).mapError .failed
    return (predicate, (Query.ofRows r.rows).filter predicate)
  | .textFilter property text => do
    let predicate ← (Filter.compileText r.schema o 0 r.root property text).mapError .failed
    return (predicate, (Query.ofRows r.rows).filter predicate)
  | .project args => do
    let mappings ← args.mapM readMapping
    let root := Projection.rootParam o 0 r.root
    let projection ← (Projection.compile r.schema mappings root "" .empty).1.mapError .failed
    return (projection.lambda, (Query.ofRows r.rows).project projection)

def answer (env : Environment) (files : Files) (i : Invocation) :
    Except Failure (Lambda × List Value) := do
  let o ← loadOptions env files i.config
  let rows ← load files i.input
  let (lambda, query) ← plan files o rows i.command
  return (lambda, ← query.toList.mapError .failed)

/-! ## Output -/

/-- The output of a run; `explained` is the function to show. -/
def report (format : Format) (explained : Option Lambda) (rows : List Value) : String :=
  match format with
  | .json =>
    let entries := explained.toList.map fun l => ("expression", Json.string l.text)
    (Json.ofEntries (entries ++ [("rows", .array (rows.map Value.toJson))])).pretty ++ "\n"
  | .text =>
    let lines := explained.toList.map (fun l => "expression: " ++ l.text) ++ rows.map Value.text ++
      [s!"({rows.length} rows)"]
    lines.foldl (fun text line => text ++ line ++ "\n") ""

def versionText : String := "qproj 0.4.0\n"

def helpText : String :=
  "Usage: qproj [--format text|json] [--config FILE] [--explain] COMMAND\n\n" ++
  "Commands:\n" ++
  "  filter       --schema FILE --root TYPE --data FILE --filters FILE\n" ++
  "  text-filter  --schema FILE --root TYPE --data FILE --property PATH --text TEXT\n" ++
  "  project      --schema FILE --root TYPE --data FILE --map TO=FROM...\n"

def Stop.outcome : Stop → Outcome
  | .usage => ⟨2, "", helpText⟩
  | .help => ⟨0, helpText, ""⟩
  | .version => ⟨0, versionText, ""⟩

def runInvocation (env : Environment) (files : Files) (i : Invocation) : Outcome :=
  match answer env files i with
  | .error f => f.outcome
  | .ok (lambda, rows) => ⟨0, report i.format (if i.explain then some lambda else none) rows, ""⟩

def run (env : Environment) (files : Files) (args : List String) : Outcome :=
  match Invocation.parse env.configVariable args with
  | .error stop => stop.outcome
  | .ok i => runInvocation env files i

end RecordQuery.CommandLine
