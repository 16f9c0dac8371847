import RecordQuery.Error
import RecordQuery.Schema.Ty
import RecordQuery.Text.Blank

/-!
# Catalogs of record and enumeration types

* `RecordType`, `EnumType`: a record type with its fields, an enumeration with its constants;
* `Schema`: a catalog in which the last declaration of a name counts;
* `Schema.record`, `Schema.enumeration`: a declaration by name;
* `Schema.validate`: every field type refers to declared types;
* `Ty.read`: the type that a text names in a catalog.

Record types refer to one another by name, so they may form cycles.
-/

namespace RecordQuery

structure RecordType where
  name : String
  fields : List Field
  deriving DecidableEq, Repr

/-- The first field of the name. -/
def RecordType.field? (r : RecordType) (name : String) : Option Field :=
  r.fields.find? (·.name == name)

structure EnumType where
  name : String
  constants : List (String × Int64)
  deriving DecidableEq, Repr

/-- The ordinal of the first constant of the name. -/
def EnumType.ordinalOf? (e : EnumType) (name : String) : Option Int64 :=
  (e.constants.find? (·.1 == name)).map (·.2)

def EnumType.nameOf? (e : EnumType) (ordinal : Int64) : Option String :=
  (e.constants.find? (·.2 == ordinal)).map (·.1)

/-- A catalog of types, each name declared once. -/
structure Schema where
  records : List RecordType
  enums : List EnumType
  deriving DecidableEq, Repr

namespace Schema

def empty : Schema := ⟨[], []⟩

/-- Declares a record type, in place of any earlier one of the name. -/
def addRecord (s : Schema) (r : RecordType) : Schema :=
  { s with records := s.records.filter (·.name != r.name) ++ [r] }

def addEnum (s : Schema) (e : EnumType) : Schema :=
  { s with enums := s.enums.filter (·.name != e.name) ++ [e] }

def record? (s : Schema) (name : String) : Option RecordType :=
  s.records.find? (·.name == name)

def enumeration? (s : Schema) (name : String) : Option EnumType :=
  s.enums.find? (·.name == name)

def record (s : Schema) (name : String) : Except Error RecordType :=
  (s.record? name).elim (.error (.schema (.unknownRecord name))) .ok

def enumeration (s : Schema) (name : String) : Except Error EnumType :=
  (s.enumeration? name).elim (.error (.schema (.unknownEnum name))) .ok

/-- Every record and enumeration that the type names is declared. -/
def checkTy (s : Schema) : Ty → Except Error Unit
  | .record name => (s.record name).map fun _ => ()
  | .enum name => (s.enumeration name).map fun _ => ()
  | .list inner | .nullable inner => s.checkTy inner
  | _ => .ok ()

def validate (s : Schema) : Except Error Unit :=
  s.records.forM fun r => r.fields.forM fun f => s.checkTy f.ty

end Schema

/-! ## Names of types -/

namespace Ty

/-- The name of the element type in the name of a list type. -/
def elementChars? : List Char → Option (List Char)
  | 'l' :: 'i' :: 's' :: 't' :: '<' :: cs =>
    if cs.getLast? = some '>' then some cs.dropLast else none
  | _ => none

theorem length_of_elementChars? {cs inner : List Char} (h : elementChars? cs = some inner) :
    inner.length < cs.length := by
  unfold elementChars? at h
  split at h
  · split at h
    · cases h
      simp only [List.length_dropLast, List.length_cons]
      omega
    · cases h
  · cases h

/-- The type of a name that is neither nullable nor a list; records come before enumerations. -/
def readAtom (s : Schema) (name : String) : Except Error Ty :=
  match name with
  | "bool" => .ok .bool
  | "int" => .ok .int
  | "float" => .ok .float
  | "string" => .ok .string
  | "uuid" => .ok .uuid
  | "date" => .ok .date
  | "datetime" => .ok .dateTime
  | _ =>
    if (s.record? name).isSome then .ok (.record name)
    else if (s.enumeration? name).isSome then .ok (.enum name)
    else .error (.schema (.unknownType name))

/-- The type that the characters name; blanks around a name do not count. -/
def readChars (s : Schema) (cs : List Char) : Except Error Ty :=
  let name := Text.trimChars cs
  if _h : name.getLast? = some '?' then (readChars s name.dropLast).map orNull
  else
    match _h : elementChars? name with
    | some inner => (readChars s inner).map .list
    | none => readAtom s (.ofList name)
termination_by cs.length
decreasing_by
  · have hle := Text.length_trimChars_le cs
    have hne : (Text.trimChars cs).length ≠ 0 := by
      intro h0
      simp [name, List.length_eq_zero_iff.1 h0] at _h
    simp only [List.length_dropLast]
    omega
  · have hle := Text.length_trimChars_le cs
    have hlt := length_of_elementChars? _h
    simp only [name] at hlt
    omega

def read (s : Schema) (text : String) : Except Error Ty := readChars s text.toList

end Ty

end RecordQuery
