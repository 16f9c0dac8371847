import RecordQuery.Options.Basic
import RecordQuery.Toml.Reader

/-!
# Options as documents

Options are written as the TOML tables `projection`, with key `root_parameter`, and `filter`, with
keys `root_parameter` and `in_separator`. What is left out has its default, and no other key
matters. A table may also be written as an array of its values in that order.

* `Options.Fault`: why a document is refused;
* `Options.read`: the options that a text describes.
-/

namespace RecordQuery.Options

inductive Fault
  | unreadable
  | emptyValue (key : String)
  deriving DecidableEq, Repr

/-- The wording; `source` names the document. -/
def Fault.message (source : String) : Fault → String
  | .unreadable => s!"failed to parse config {source}"
  | .emptyValue key => s!"config value '{key}' is invalid: must not be empty"

def text? : Option Toml → Option (Option String)
  | none => some none
  | some (.string s) => some (some s)
  | some _ => none

/-- The texts that a section gives to its keys. -/
def textsOf? (keys : List String) : Option Toml → Option (List (Option String))
  | none | some (.moment _) => some (keys.map fun _ => none)
  | some (.table _ entries) => keys.mapM fun key => text? (entries.lookup key)
  | some (.array items) => keys.zipIdx.mapM fun (_, i) => text? items[i]?
  | some _ => none

def ofEntries? (entries : List (String × Toml)) : Option Options := do
  let [projectionRoot] ← textsOf? ["root_parameter"] (entries.lookup "projection") | none
  let [filterRoot, separator] ←
    textsOf? ["root_parameter", "in_separator"] (entries.lookup "filter") | none
  let defaults : Options := {}
  return ⟨projectionRoot.getD defaults.projectionRoot, filterRoot.getD defaults.filterRoot,
    separator.getD defaults.separator⟩

def check (o : Options) : Except Fault Unit := do
  if o.projectionRoot.isEmpty then throw (.emptyValue "projection.root_parameter")
  if o.filterRoot.isEmpty then throw (.emptyValue "filter.root_parameter")
  if o.separator.isEmpty then throw (.emptyValue "filter.in_separator")

def read (text : String) : Except Fault Options := do
  let some o := (Toml.read? text).bind ofEntries? | throw .unreadable
  check o
  return o

end RecordQuery.Options
