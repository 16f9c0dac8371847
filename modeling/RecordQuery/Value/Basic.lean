import RecordQuery.Calendar.DateTime
import RecordQuery.Number.Decimal
import RecordQuery.Shape.Basic
import RecordQuery.Uuid

/-!
# Values

* `Value`: null, scalars, constants of enumerations, lists, records and instances of shapes;
* `Value.insert`, `Value.get?`: the fields of a record, in the order of their first insertion;
* `Value.eqv`: equality, numerical on floats and by ordinal on constants;
* `Value.compare`: the order of two values of one kind; integers and floats compare as floats;
* `Value.text`: the text of a value.
-/

namespace RecordQuery

/-- A constant of an enumeration. An undeclared ordinal has no name. -/
structure Constant where
  ordinal : Int64
  name : Option String
  deriving DecidableEq, Repr

def Constant.text (c : Constant) : String := c.name.getD (Integer.text c.ordinal)

/-- A value. An instance of a shape has one value for each field of the shape. -/
inductive Value
  | null
  | bool (b : Bool)
  | int (n : Int64)
  | float (x : Binary64)
  | string (s : String)
  | uuid (u : Uuid)
  | date (d : Date)
  | dateTime (t : DateTime)
  | enum (c : Constant)
  | list (items : List Value)
  | record (fields : List (String × Value))
  | shape (shape : Shape) (values : List Value)

namespace Value

def isNull : Value → Bool
  | .null => true
  | _ => false

/-! ## Fields of records -/

/-- Sets a field; a new one comes last. -/
def insert (name : String) (value : Value) : List (String × Value) → List (String × Value)
  | [] => [(name, value)]
  | (n, v) :: fields =>
    if n = name then (name, value) :: fields else (n, v) :: insert name value fields

def get? (fields : List (String × Value)) (name : String) : Option Value := fields.lookup name

def slot? (shape : Shape) (values : List Value) (name : String) : Option Value :=
  (shape.indexOf? name).bind (values[·]?)

/-! ## Equality and order -/

mutual

/-- Equality: numerical on floats, by ordinal on constants, of shape and values on instances. -/
def eqv : Value → Value → Bool
  | .null, .null => true
  | .bool a, .bool b => a == b
  | .int a, .int b => a == b
  | .float a, .float b => a.eqv b
  | .string a, .string b => a == b
  | .uuid a, .uuid b => a == b
  | .date a, .date b => a == b
  | .dateTime a, .dateTime b => a == b
  | .enum a, .enum b => a.ordinal == b.ordinal
  | .list as, .list bs => eqvItems as bs
  | .record as, .record bs => eqvFields as bs
  | .shape s as, .shape t bs => s.id == t.id && eqvItems as bs
  | _, _ => false

def eqvItems : List Value → List Value → Bool
  | [], [] => true
  | a :: as, b :: bs => a.eqv b && eqvItems as bs
  | _, _ => false

def eqvFields : List (String × Value) → List (String × Value) → Bool
  | [], [] => true
  | (n, a) :: as, (m, b) :: bs => n == m && a.eqv b && eqvFields as bs
  | _, _ => false

end

/-- The order of two values of one kind; text is ordered by code points. -/
def compare : Value → Value → Option Ordering
  | .bool a, .bool b => some (Ord.compare a b)
  | .int a, .int b => some (Ord.compare a.toInt b.toInt)
  | .float a, .float b => a.compare b
  | .int a, .float b => (Binary64.ofInt a.toInt).compare b
  | .float a, .int b => a.compare (.ofInt b.toInt)
  | .string a, .string b => some (List.compareLex Ord.compare a.toList b.toList)
  | .uuid a, .uuid b => some (a.compare b)
  | .date a, .date b => some (a.compare b)
  | .dateTime a, .dateTime b => some (a.compare b)
  | .enum a, .enum b => some (Ord.compare a.ordinal.toInt b.ordinal.toInt)
  | _, _ => none

/-! ## Text -/

def bracedText (parts : List String) : String := "\x7b " ++ Text.joined ", " parts ++ " \x7d"

mutual

def text : Value → String
  | .null => ""
  | .bool b => if b then "true" else "false"
  | .int n => Integer.text n
  | .float x => x.text
  | .string s => s
  | .uuid u => .ofList u.chars
  | .date d => .ofList d.chars
  | .dateTime t => .ofList t.chars
  | .enum c => c.text
  | .list items => "[" ++ Text.joined ", " (itemTexts items) ++ "]"
  | .record fields => bracedText (fieldTexts fields)
  | .shape s values =>
    bracedText (List.zipWith (fun f t => f.name ++ " = " ++ t) s.fields (itemTexts values))

def itemTexts : List Value → List String
  | [] => []
  | v :: vs => v.text :: itemTexts vs

def fieldTexts : List (String × Value) → List String
  | [] => []
  | (name, v) :: fields => (name ++ " = " ++ v.text) :: fieldTexts fields

end

end Value

def Shape.construct (s : Shape) (values : List Value) : Except Error Value :=
  if values.length = s.fields.length then .ok (.shape s values)
  else .error (.evaluation (.valueCount s.name s.fields.length values.length))

end RecordQuery
