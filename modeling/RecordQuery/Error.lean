import RecordQuery.Number.Decimal
import RecordQuery.Uuid

/-!
# Errors

Each kind of error carries its cause, and `Error.message` words it.

* `ConversionFault`: why a text does not convert to a type;
* `MappingFault`: why a mapping, or a list of them, is refused;
* `SchemaFault`, `DocumentFault`: why a catalog or a document is refused;
* `EvalFault`: why an expression has no value;
* `Error`, `Error.code`, `Error.message`, `Error.text`.

`stated` is a cause that the caller words.
-/

namespace RecordQuery

/-- Why a text does not convert to a type. -/
inductive ConversionFault
  | booleanExpected
  | integer (fault : Integer.Fault)
  | float (fault : Binary64.Fault)
  | uuid (fault : Uuid.Fault)
  | dateExpected
  | momentExpected
  | noTextForm
  | unknownConstant (token : String)
  | missingText
  | missingList
  | stated (text : String)
  deriving DecidableEq, Repr

def ConversionFault.message : ConversionFault → String
  | .booleanExpected => "expected 'true' or 'false'"
  | .integer fault => fault.message
  | .float fault => fault.message
  | .uuid fault => fault.message
  | .dateExpected => "expected YYYY-MM-DD"
  | .momentExpected => "expected RFC 3339 or YYYY-MM-DD[ HH:MM:SS]"
  | .noTextForm => "type has no textual conversion"
  | .unknownConstant token => s!"no constant named '{token}'"
  | .missingText => "a missing value has no textual form"
  | .missingList => "In requires a value list"
  | .stated text => text

inductive MappingFault
  | emptyName
  | reservedCharacter
  | duplicateName
  | strayParameter (name : String)
  | otherRoot (expected root : String)
  | unproduced
  | stated (text : String)
  deriving DecidableEq, Repr

def MappingFault.message : MappingFault → String
  | .emptyName => "output field name is empty"
  | .reservedCharacter => "output field names may not contain '~' or '|'"
  | .duplicateName => "duplicate output field name"
  | .strayParameter name => s!"expression references parameter '{name}' besides its own"
  | .otherRoot expected root => s!"expression is over {expected}, root is {root}"
  | .unproduced => "no mapping produces this field"
  | .stated text => text

inductive SchemaFault
  | unknownType (name : String)
  | unknownRecord (name : String)
  | unknownEnum (name : String)
  | malformed
  | stated (text : String)
  deriving DecidableEq, Repr

def SchemaFault.message : SchemaFault → String
  | .unknownType name => s!"unknown type '{name}'"
  | .unknownRecord name => s!"unknown record type '{name}'"
  | .unknownEnum name => s!"unknown enum type '{name}'"
  | .malformed => "malformed schema document"
  | .stated text => text

inductive DocumentFault
  | filterList
  | invalidValue (json ty : String)
  | stated (text : String)
  deriving DecidableEq, Repr

def DocumentFault.message : DocumentFault → String
  | .filterList => "filter list"
  | .invalidValue json ty => s!"JSON value {json} is not a valid {ty}"
  | .stated text => text

/-- Why an expression has no value; `found`, `left` and `right` are texts of values. -/
inductive EvalFault
  | unbound (name : String)
  | missingField (shape name : String)
  | notReadable (name found : String)
  | notBoolean (found : String)
  | notPredicate (found : String)
  | unordered (left right : String)
  | notText (method : String)
  | nullConversion (ty : String)
  | valueCount (shape : String) (expected found : Nat)
  | notShape (found : String)
  | stated (text : String)
  deriving DecidableEq, Repr

def EvalFault.message : EvalFault → String
  | .unbound name => s!"parameter '{name}' is not bound"
  | .missingField shape name => s!"{shape} has no field '{name}'"
  | .notReadable name found => s!"cannot read '{name}' from '{found}'"
  | .notBoolean found => s!"expected a boolean, found '{found}'"
  | .notPredicate found => s!"predicate produced non-boolean '{found}'"
  | .unordered left right => s!"cannot order '{left}' against '{right}'"
  | .notText method => s!"{method} expects text operands"
  | .nullConversion ty => s!"null cannot be converted to {ty}"
  | .valueCount shape expected found => s!"{shape} takes {expected} values, got {found}"
  | .notShape found => s!"projection produced '{found}' instead of a shape"
  | .stated text => text

inductive Error
  /-- A segment of a dotted path is empty, not declared, or applied to a type without fields. -/
  | unresolved (path segment onType : String)
  | mapping (name : String) (fault : MappingFault)
  | conversion (raw target : String) (fault : ConversionFault)
  | unsupportedOperator (operator : String)
  /-- An operation is applied to operands of the wrong types. -/
  | mismatch (operation found : String)
  | schema (fault : SchemaFault)
  | document (fault : DocumentFault)
  | evaluation (fault : EvalFault)
  /-- A text names an instant whose date in UTC is beyond the calendar. -/
  | beyondCalendar
  deriving DecidableEq, Repr

namespace Error

def code : Error → String
  | .unresolved .. => "PathResolution"
  | .mapping .. => "InvalidMapping"
  | .conversion .. => "ValueConversion"
  | .unsupportedOperator _ => "UnsupportedOperator"
  | .mismatch .. => "TypeMismatch"
  | .schema _ => "Schema"
  | .document _ => "Document"
  | .evaluation _ => "Evaluation"
  | .beyondCalendar => "Calendar"

def message : Error → String
  | .unresolved path segment onType =>
    s!"cannot resolve '{segment}' of path '{path}' on type '{onType}'"
  | .mapping name fault => s!"invalid mapping '{name}': {fault.message}"
  | .conversion raw target fault => s!"cannot convert '{raw}' to {target}: {fault.message}"
  | .unsupportedOperator operator => s!"unsupported filter operator '{operator}'"
  | .mismatch operation found => s!"{operation} is not defined for {found}"
  | .schema fault => s!"schema error: {fault.message}"
  | .document fault => s!"malformed document: {fault.message}"
  | .evaluation fault => s!"evaluation error: {fault.message}"
  | .beyondCalendar => "instant beyond the calendar"

/-- The wording after the name of the kind. -/
def text (e : Error) : String := s!"[{e.code}] {e.message}"

end Error

end RecordQuery
