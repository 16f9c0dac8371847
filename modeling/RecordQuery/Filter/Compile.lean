import RecordQuery.Filter.Descriptor
import RecordQuery.Filter.Grammar
import RecordQuery.Lambda
import RecordQuery.Options.Basic
import RecordQuery.Value.FromText

/-!
# Predicates of filters

* `Filter.constant`: the constant of a type that a text denotes;
* `Filter.predicate`: the predicate of a descriptor;
* `Filter.compile`: the conjunction of the predicates of a list;
* `Filter.textPredicate`, `Filter.compileText`: the disjunction of the patterns of a text filter.

A constant of a nullable type is one of the underlying type, converted.
-/

namespace RecordQuery.Filter

open RecordQuery.Expr

/-- The constant of the type that the text denotes; no text denotes null. -/
def constant (s : Schema) (raw : Option String) (ty : Ty) : Except Error Expr := do
  let value ← match raw with
    | some raw => Value.read s raw ty
    | none => pure .null
  if ty.isNullable then mkConvert (← mkLiteral value ty.underlying) ty else mkLiteral value ty

def comparison (s : Schema) (op : BinaryOp) (property : Expr) (raw : Option String) :
    Except Error Expr := do
  mkBinary op property (← constant s raw property.ty)

/-- Calls a method of text; other types are compared by their texts. -/
def textMatch (s : Schema) (m : Method) (property : Expr) (raw : Option String) :
    Except Error Expr := do
  let ty := property.ty
  let c ← constant s raw ty
  if ty.isText then mkCall m property [c]
  else if raw.isNone then throw (.conversion "null" ty.text .missingText)
  else mkCall m (← mkCall .toText property []) [← mkCall .toText c []]

/-- The property is null or the empty text; other types are compared with the constant. -/
def emptiness (s : Schema) (property : Expr) (raw : Option String) : Except Error Expr := do
  let ty := property.ty
  if ty.isText then
    let isNull ← mkBinary .equal property (null ty)
    let isBlank ← mkBinary .equal property (← mkLiteral (.string "") ty)
    mkBinary .or isNull isBlank
  else comparison s .equal property raw

/-- The property is one of the values of a list: identifiers by value, constants of enumerations by
ordinal, and other types by their texts. -/
def membership (s : Schema) (separator : String) (property : Expr) (raw : Option String) :
    Except Error Expr := do
  let ty := property.ty
  let some raw := raw | throw (.conversion "null" ty.text .missingList)
  let tokens := Text.split raw separator
  match ty.underlying with
  | .uuid =>
    let tests ← tokens.mapM fun token => do
      mkBinary .equal (← mkLiteral (← Value.read s token .uuid) .uuid) property
    return (← fold .or tests).getD (.literal (.bool false) .bool)
  | .enum name =>
    let constants ← tokens.mapM (Constant.read s name)
    let list ← mkLiteral (.list (constants.map .enum)) (.list (.enum name))
    mkCall .listContains list [property]
  | _ =>
    let list ← mkLiteral (.list (tokens.map .string)) (.list .string)
    let needle ← if ty.isText then pure property else mkCall .toText property []
    mkCall .listContains list [needle]

def predicate (s : Schema) (separator : String) (root : Param) (d : Descriptor) :
    Except Error Expr := do
  let property ← resolve s (.param root) d.property
  match d.operator with
  | .none => throw (.unsupportedOperator Operator.none.name)
  | .equal => comparison s .equal property d.value
  | .notEqual => comparison s .notEqual property d.value
  | .less => comparison s .less property d.value
  | .lessOrEqual => comparison s .lessOrEqual property d.value
  | .greater => comparison s .greater property d.value
  | .greaterOrEqual => comparison s .greaterOrEqual property d.value
  | .startsWith => textMatch s .startsWith property d.value
  | .contains => textMatch s .contains property d.value
  | .oneOf => membership s separator property d.value
  | .isEmpty => emptiness s property d.value
  | .isNotEmpty => mkNot (← emptiness s property d.value)

/-- The predicate of a list of filters, all of which must hold. The root parameter takes the number
`id`. -/
def compile (s : Schema) (o : Options) (id : Nat) (root : Ty) (ds : List Descriptor) :
    Except Error Lambda := do
  let p : Param := ⟨id, o.filterRoot, root⟩
  let predicates ← (ds.filter (·.operator != .none)).mapM (predicate s o.separator p)
  return ⟨p, (← fold .and predicates).getD .alwaysTrue⟩

def Pattern.ask (property : Expr) (p : Pattern) : Except Error Expr :=
  textCall p.method property p.needle

/-- The predicate of a text filter over the root parameter; without segments it holds everywhere. -/
def textPredicate (s : Schema) (root : Param) (property text : String) : Except Error Expr := do
  let patterns := (segments text).map .ofSegment
  if patterns.isEmpty then return .alwaysTrue
  let property ← resolve s (.param root) property
  let tests ← patterns.mapM (Pattern.ask property)
  return (← fold .or tests).getD .alwaysTrue

def compileText (s : Schema) (o : Options) (id : Nat) (root : Ty) (property text : String) :
    Except Error Lambda := do
  let p : Param := ⟨id, o.filterRoot, root⟩
  return ⟨p, ← textPredicate s p property text⟩

end RecordQuery.Filter
