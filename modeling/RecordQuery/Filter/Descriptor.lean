import RecordQuery.Error
import RecordQuery.Json.Printer
import RecordQuery.Json.Reader
import RecordQuery.Text.Blank
import RecordQuery.Text.Pieces

/-!
# Filter descriptors

A list of filters is written `[{"property": ..., "operator": ..., "value": ...}, ...]`, where
operator and value may be left out.

* `Filter.Operator`: what a filter compares with; `Operator.read?` ignores case and blanks around;
* `Filter.Descriptor`: a property, an operator and a value that is still text;
* `Filter.readList`: the list that a text describes, with unknown operators told apart from other
  faults and null for an operator left out;
* `Filter.readStrict?`: the same for texts that leave an operator out or name one;
* `Filter.writeList`: the text of a list.
-/

namespace RecordQuery.Filter

open Json (Raw)

/-- The operator of a filter. A filter with `none` is not applied. -/
inductive Operator
  | none
  | equal
  | notEqual
  | less
  | lessOrEqual
  | greater
  | greaterOrEqual
  | startsWith
  | contains
  | oneOf
  | isEmpty
  | isNotEmpty
  deriving DecidableEq, Repr

namespace Operator

def name : Operator → String
  | .none => "None"
  | .equal => "Equal"
  | .notEqual => "NotEqual"
  | .less => "LessThan"
  | .lessOrEqual => "LessThanOrEqual"
  | .greater => "GreaterThan"
  | .greaterOrEqual => "GreaterThanOrEqual"
  | .startsWith => "StartsWith"
  | .contains => "Contains"
  | .oneOf => "In"
  | .isEmpty => "IsEmpty"
  | .isNotEmpty => "IsNotEmpty"

def all : List Operator :=
  [.none, .equal, .notEqual, .less, .lessOrEqual, .greater, .greaterOrEqual, .startsWith, .contains,
    .oneOf, .isEmpty, .isNotEmpty]

/-- The operator of a name, in any case of ASCII letters and with blanks around it. -/
def read? (text : String) : Option Operator :=
  all.find? fun op => Text.sameLetters op.name (Text.trim text)

/-- The operator of a name; the refusal gives the name as written. -/
def read (text : String) : Except Error Operator :=
  (read? text).elim (.error (.unsupportedOperator text)) .ok

end Operator

/-- A filter on a property. The value is read when the type of the property is known. -/
structure Descriptor where
  property : String
  operator : Operator
  value : Option String
  deriving DecidableEq, Repr

/-! ## Reading -/

def optionalText? : Option Raw → Option (Option String)
  | none | some .null => some none
  | some r => r.string?.map some

structure Draft where
  property : String
  operator : Option String
  value : Option String

def Draft.ofRaw? (r : Raw) : Option Draft := do
  let [some property, operator, value] ← r.slots? ["property", "operator", "value"] | none
  return ⟨← property.string?, ← optionalText? operator, ← optionalText? value⟩

def Draft.descriptor (d : Draft) : Except Error Descriptor := do
  let operator ← match d.operator with
    | some name => Operator.read name
    | none => pure .none
  return ⟨d.property, operator, d.value⟩

def items? (text : String) : Option (List Raw) :=
  match Raw.read? text with
  | some (.array items) => some items
  | _ => none

/-- The list of filters that the text describes; null for an operator means none. -/
def readList (text : String) : Except Error (List Descriptor) :=
  match (items? text).bind (·.mapM Draft.ofRaw?) with
  | some drafts => drafts.mapM Draft.descriptor
  | none => .error (.document .filterList)

/-- An operator that may be left out but not be null. -/
def strictOperator? : Option Raw → Option Operator
  | none => some .none
  | some r => r.string?.bind Operator.read?

def Descriptor.ofRaw? (r : Raw) : Option Descriptor := do
  let [some property, operator, value] ← r.slots? ["property", "operator", "value"] | none
  return ⟨← property.string?, ← strictOperator? operator, ← optionalText? value⟩

def readStrict? (text : String) : Option (List Descriptor) :=
  (items? text).bind (·.mapM Descriptor.ofRaw?)

/-! ## Writing -/

def Descriptor.chars (d : Descriptor) : List Char :=
  let value := match d.value with
    | some text => Json.quotedChars text
    | none => Json.null.chars
  r#"{"property":"#.toList ++ Json.quotedChars d.property ++
    r#","operator":"#.toList ++ Json.quotedChars d.operator.name ++
    r#","value":"#.toList ++ value ++ ['\x7d']

def writeList (ds : List Descriptor) : String :=
  .ofList ('[' :: (Json.commaSeparated (ds.map Descriptor.chars) ++ [']']))

end RecordQuery.Filter
