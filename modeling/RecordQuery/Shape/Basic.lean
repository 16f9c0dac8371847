import RecordQuery.Error
import RecordQuery.Schema.Ty
import RecordQuery.Text.Pieces

/-!
# Shapes

* `Shape`: the record of one projection, its fields in order;
* `Signature.check`: the field lists that a shape can have;
* `Signature.text`: the key of a field list, `name~type` for each field and `|` between them.
-/

namespace RecordQuery

/-- A record type made for one list of fields; its number identifies it. -/
structure Shape where
  id : Nat
  fields : List Field
  deriving DecidableEq, Repr

namespace Signature

/-- Names are not empty, hold no separator of the key, and differ from the `seen` ones. -/
def check (seen : List String) : List Field → Except Error Unit
  | [] => .ok ()
  | f :: fields =>
    if f.name.isEmpty then .error (.mapping f.name .emptyName)
    else if f.name.toList.any fun c => c == '~' || c == '|' then
      .error (.mapping f.name .reservedCharacter)
    else if seen.contains f.name then .error (.mapping f.name .duplicateName)
    else check (f.name :: seen) fields

/-- The key of a field list, which depends on the order. -/
def text (fields : List Field) : String :=
  Text.joined "|" (fields.map fun f => f.name ++ "~" ++ f.ty.text)

def read (fields : List Field) : Except Error String := do
  check [] fields
  return text fields

end Signature

namespace Shape

def name (s : Shape) : String := shapeName s.id

def ty (s : Shape) : Ty := .shape s.id

def signature (s : Shape) : String := Signature.text s.fields

def indexOf? (s : Shape) (name : String) : Option Nat := s.fields.findIdx? (·.name == name)

end Shape

end RecordQuery
