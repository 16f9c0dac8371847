import RecordQuery.Schema.Basic
import RecordQuery.Value.Basic
import RecordQuery.Text.Pieces

/-!
# Values from text

* `Constant.read`: a constant from its ordinal or its declared name;
* `Value.read`: a value of a type from text.

Blanks around the text do not count, but for text itself. The empty text means null where the type
is nullable and not text.
-/

namespace RecordQuery

/-- Reads a constant of the enumeration of the name: an ordinal, declared or not, or a constant. -/
def Constant.read (s : Schema) (enumName raw : String) : Except Error Constant := do
  let enumeration ← s.enumeration enumName
  let token := Text.trim raw
  match Integer.read? token.toList with
  | some ordinal => return ⟨ordinal, enumeration.nameOf? ordinal⟩
  | none =>
    match enumeration.ordinalOf? token with
    | some ordinal => return ⟨ordinal, some token⟩
    | none => throw (.conversion raw enumName (.unknownConstant token))

namespace Value

/-- Reads a value of the type. -/
def read (s : Schema) (raw : String) : Ty → Except Error Value
  | .nullable inner => if raw.isEmpty && !inner.isText then .ok .null else read s raw inner
  | .string => .ok (.string raw)
  | .bool =>
    if Text.sameLetters (Text.trim raw) "true" then .ok (.bool true)
    else if Text.sameLetters (Text.trim raw) "false" then .ok (.bool false)
    else .error (.conversion raw Ty.bool.text .booleanExpected)
  | .int =>
    match Integer.read (Text.trimChars raw.toList) with
    | .ok n => .ok (.int n)
    | .error fault => .error (.conversion raw Ty.int.text (.integer fault))
  | .float =>
    match Binary64.read (Text.trimChars raw.toList) with
    | .ok x => .ok (.float x)
    | .error fault => .error (.conversion raw Ty.float.text (.float fault))
  | .uuid =>
    match Uuid.read (Text.trimChars raw.toList) with
    | .ok u => .ok (.uuid u)
    | .error fault => .error (.conversion raw Ty.uuid.text (.uuid fault))
  | .date =>
    match Date.read? (Text.trimChars raw.toList) with
    | some d => .ok (.date d)
    | none => .error (.conversion raw Ty.date.text .dateExpected)
  | .dateTime =>
    match DateTime.read (Text.trimChars raw.toList) with
    | .ok t => .ok (.dateTime t)
    | .error .unreadable => .error (.conversion raw Ty.dateTime.text .momentExpected)
    | .error .beyondCalendar => .error .beyondCalendar
  | .enum name => (Constant.read s name raw).map .enum
  | .record name => .error (.conversion raw name .noTextForm)
  | .shape id => .error (.conversion raw (shapeName id) .noTextForm)
  | .list elem => .error (.conversion raw (Ty.list elem).text .noTextForm)

end Value

end RecordQuery
