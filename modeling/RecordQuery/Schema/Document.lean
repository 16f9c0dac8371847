import RecordQuery.Json.Reader
import RecordQuery.Schema.Basic

/-!
# Catalogs as documents

A catalog is written `{"records": [...], "enums": [...]}`: a record has a name and fields, which
have a name and a type; an enumeration has a name and constants, which have a name and an integer
value. Lists may be left out.

* `Schema.Document`: what such a document says, types still as text;
* `Schema.Document.ofRaw?`: the document's form;
* `Schema.ofDocument`: the catalog, all names of which are declared before a type is read;
* `Schema.read`: the catalog that a text describes.
-/

namespace RecordQuery.Schema

structure RecordDraft where
  name : String
  fields : List (String × String)

/-- A catalog whose field types are still text. -/
structure Document where
  records : List RecordDraft
  enums : List EnumType

namespace Document

open Json (Raw)

/-- The items of a list, which may be left out but not be null. -/
def items? : Option Raw → Option (List Raw)
  | none => some []
  | some (.array items) => some items
  | some _ => none

def field? (r : Raw) : Option (String × String) := do
  let [some name, some ty] ← r.slots? ["name", "type"] | none
  return (← name.string?, ← ty.string?)

def record? (r : Raw) : Option RecordDraft := do
  let [some name, fields] ← r.slots? ["name", "fields"] | none
  return ⟨← name.string?, ← (← items? fields).mapM field?⟩

def constant? (r : Raw) : Option (String × Int64) := do
  let [some name, some value] ← r.slots? ["name", "value"] | none
  return (← name.string?, ← value.int64?)

def enum? (r : Raw) : Option EnumType := do
  let [some name, constants] ← r.slots? ["name", "constants"] | none
  return ⟨← name.string?, ← (← items? constants).mapM constant?⟩

def ofRaw? (r : Raw) : Option Document := do
  let [records, enums] ← r.slots? ["records", "enums"] | none
  return ⟨← (← items? records).mapM record?, ← (← items? enums).mapM enum?⟩

/-- The catalog of the names, in which no record has fields yet. -/
def names (d : Document) : Schema :=
  d.enums.foldl addEnum (d.records.foldl (fun s r => s.addRecord ⟨r.name, []⟩) .empty)

def readRecord (s : Schema) (r : RecordDraft) : Except Error RecordType := do
  let fields ← r.fields.mapM fun (name, ty) => return ⟨name, ← Ty.read s ty⟩
  return ⟨r.name, fields⟩

end Document

def ofDocument (d : Document) : Except Error Schema := do
  let records ← d.records.mapM (Document.readRecord d.names)
  return records.foldl addRecord d.names

def read (text : String) : Except Error Schema :=
  match (Json.Raw.read? text).bind Document.ofRaw? with
  | some d => ofDocument d
  | none => .error (.schema .malformed)

end RecordQuery.Schema
