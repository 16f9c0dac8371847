import RecordQuery.Json.Printer
import RecordQuery.Value.FromText

/-!
# Values and JSON

* `Value.ofJson`: a value of a type from JSON; null means null for every type, and text stands for
  any scalar that text converts to;
* `Value.toJson`: the JSON of a value.

A record read from JSON has exactly the declared fields, of which the missing ones are null.
-/

namespace RecordQuery.Value

def invalidJson (ty : Ty) (j : Json) : Error := .document (.invalidValue j.compact ty.text)

mutual

def ofJson (s : Schema) (ty : Ty) : Json → Except Error Value
  | .null => .ok .null
  | .bool b =>
    match ty.underlying with
    | .bool => .ok (.bool b)
    | _ => .error (invalidJson ty (.bool b))
  | .number n =>
    match ty.underlying with
    | .int => n.int64?.elim (.error (invalidJson ty (.number n))) (.ok ∘ .int)
    | .float => .ok (.float n.toFloat)
    | .enum name =>
      match n.int64? with
      | some ordinal => (Constant.read s name (Integer.text ordinal)).map .enum
      | none => .error (invalidJson ty (.number n))
    | _ => .error (invalidJson ty (.number n))
  | .string text =>
    match ty.underlying with
    | .list _ => .error (invalidJson ty (.string text))
    | scalar => read s text scalar
  | .array items =>
    match ty.underlying with
    | .list elem => (ofItems s elem items).map .list
    | _ => .error (invalidJson ty (.array items))
  | .object entries =>
    match ty.underlying with
    | .record name => do
      let declared ← s.record name
      let fields ← declared.fields.foldlM
        (fun fields f => do return insert f.name (← ofEntry s f entries) fields) []
      return .record fields
    | _ => .error (invalidJson ty (.object entries))

def ofItems (s : Schema) (elem : Ty) : List Json → Except Error (List Value)
  | [] => .ok []
  | item :: items => do
    let value ← ofJson s elem item
    let values ← ofItems s elem items
    return value :: values

/-- The value of a field, which is null where the object has no entry for it. -/
def ofEntry (s : Schema) (f : Field) : List (String × Json) → Except Error Value
  | [] => .ok .null
  | (key, item) :: entries => if key = f.name then ofJson s f.ty item else ofEntry s f entries

end

mutual

/-- The JSON of a value; scalars without a JSON form of their own are written as text. -/
def toJson : Value → Json
  | .null => .null
  | .bool b => .bool b
  | .int n => .number (.integer n.toInt)
  | .float x => if x.isFinite then .number (.float x) else .null
  | .string s => .string s
  | .uuid u => .string (text (.uuid u))
  | .date d => .string (text (.date d))
  | .dateTime t => .string (text (.dateTime t))
  | .enum c => .string (text (.enum c))
  | .list items => .array (itemsToJson items)
  | .record fields => .ofEntries (fieldsToJson fields)
  | .shape s values => .ofEntries ((s.fields.map (·.name)).zip (itemsToJson values))

def itemsToJson : List Value → List Json
  | [] => []
  | v :: vs => v.toJson :: itemsToJson vs

def fieldsToJson : List (String × Value) → List (String × Json)
  | [] => []
  | (name, v) :: fields => (name, v.toJson) :: fieldsToJson fields

end

end RecordQuery.Value
