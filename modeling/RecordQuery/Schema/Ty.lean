/-!
# Types

* `Ty`: the types of fields, values and expressions;
* `Ty.text`: the name of a type;
* `Ty.orNull`, `Ty.underlying`: adding and removing one nullable wrapper;
* `Ty.isText`, `Ty.admitsNull`, `Ty.isOrderable`, `Ty.equatable`: which operations a type has;
* `Field`: a name with a type.
-/

namespace RecordQuery

/-- A type. Records and enumerations are named, and a catalog says what they are. -/
inductive Ty
  | bool
  | int
  | float
  | string
  | uuid
  | date
  | dateTime
  | enum (name : String)
  | record (name : String)
  | shape (id : Nat)
  | list (elem : Ty)
  | nullable (inner : Ty)
  deriving DecidableEq, Repr

def shapeName (id : Nat) : String := s!"shape#{id}"

namespace Ty

def text : Ty → String
  | .bool => "bool"
  | .int => "int"
  | .float => "float"
  | .string => "string"
  | .uuid => "uuid"
  | .date => "date"
  | .dateTime => "datetime"
  | .enum name => name
  | .record name => name
  | .shape id => shapeName id
  | .list elem => "list<" ++ elem.text ++ ">"
  | .nullable inner => inner.text ++ "?"

/-- The type with null among its values; a nullable type stays as it is. -/
def orNull : Ty → Ty
  | .nullable inner => .nullable inner
  | ty => .nullable ty

/-- The type without one nullable wrapper. -/
def underlying : Ty → Ty
  | .nullable inner => inner
  | ty => ty

def isNullable : Ty → Bool
  | .nullable _ => true
  | _ => false

def isText (ty : Ty) : Bool := ty.underlying == .string

/-- A conversion of null to the type is allowed. -/
def admitsNull : Ty → Bool
  | .nullable _ | .string | .record _ | .shape _ | .list _ => true
  | _ => false

def isOrderable (ty : Ty) : Bool :=
  match ty.underlying with
  | .int | .float | .string | .date | .dateTime => true
  | _ => false

def recordName? (ty : Ty) : Option String :=
  match ty.underlying with
  | .record name => some name
  | _ => none

/-- The types are equal up to one nullable wrapper on each. -/
def equatable (a b : Ty) : Bool := a.underlying == b.underlying

end Ty

structure Field where
  name : String
  ty : Ty
  deriving DecidableEq, Repr

end RecordQuery
