import RecordQuery.Error
import RecordQuery.Expr.Basic

/-!
# Building well-typed expressions

* `Value.fits`: the literals of a type;
* `Expr.mkLiteral`, `Expr.mkBinary`, `Expr.mkNot`, `Expr.mkCall`, `Expr.mkConditional`,
  `Expr.mkConvert`, `Expr.mkConstruct`: an expression, if its operands have the types that it needs;
* `Expr.null`, `Expr.alwaysTrue`, `Expr.inferred`, `Expr.textCall`: frequent expressions;
* `Expr.fold`: expressions joined by an operator, from left to right.
-/

namespace RecordQuery

mutual

/-- The value can be a literal of the type. Names of records and enumerations do not count. -/
def Value.fits : Value → Ty → Bool
  | .null, _ => true
  | .bool _, ty => ty.underlying == .bool
  | .int _, ty => ty.underlying == .int
  | .float _, ty => ty.underlying == .float
  | .string _, ty => ty.underlying == .string
  | .uuid _, ty => ty.underlying == .uuid
  | .date _, ty => ty.underlying == .date
  | .dateTime _, ty => ty.underlying == .dateTime
  | .enum _, ty =>
    match ty.underlying with
    | .enum _ => true
    | _ => false
  | .record _, ty => ty.recordName?.isSome
  | .shape s _, ty => ty.underlying == s.ty
  | .list items, ty =>
    match ty.underlying with
    | .list elem => itemsFit items elem
    | _ => false

def Value.itemsFit : List Value → Ty → Bool
  | [], _ => true
  | v :: vs, elem => v.fits elem && itemsFit vs elem

end

/-- The type with which an untyped literal is written, if its value has one. -/
def Value.naturalTy? : Value → Option Ty
  | .bool _ => some .bool
  | .int _ => some .int
  | .float _ => some .float
  | .string _ => some .string
  | .uuid _ => some .uuid
  | .date _ => some .date
  | .dateTime _ => some .dateTime
  | _ => none

def BinaryOp.accepts (op : BinaryOp) (left right : Ty) : Bool :=
  match op with
  | .and | .or => left.underlying == .bool && right.underlying == .bool
  | .equal | .notEqual => left.equatable right
  | _ => left.equatable right && left.isOrderable

def Method.accepts (m : Method) (target : Ty) (args : List Ty) : Bool :=
  match m, args with
  | .toText, args => args.isEmpty
  | .listContains, [arg] =>
    match target.underlying with
    | .list elem => elem.equatable arg
    | _ => false
  | .listContains, _ => false
  | _, [arg] => target.isText && arg.isText
  | _, _ => false

namespace Expr

def mkLiteral (value : Value) (ty : Ty) : Except Error Expr :=
  if value.fits ty then .ok (.literal value ty)
  else .error (.mismatch "literal" s!"value '{value.text}' of type {ty.text}")

def null (ty : Ty) : Expr := .literal .null ty

def alwaysTrue : Expr := .literal (.bool true) .bool

/-- A literal whose type the value tells. -/
def inferred (value : Value) : Except Error Expr :=
  match value.naturalTy? with
  | some ty => mkLiteral value ty
  | none => .error (.mismatch "untyped literal" s!"'{value.text}'")

def mkBinary (op : BinaryOp) (left right : Expr) : Except Error Expr :=
  if op.accepts left.ty right.ty then .ok (.binary op left right)
  else .error (.mismatch op.symbol s!"{left.ty.text} and {right.ty.text}")

def mkNot (operand : Expr) : Except Error Expr :=
  if operand.ty.underlying = .bool then .ok (.not operand)
  else .error (.mismatch "!" operand.ty.text)

def mkCall (m : Method) (target : Expr) (args : List Expr) : Except Error Expr :=
  if m.accepts target.ty (args.map ty) then .ok (.call m target args)
  else
    let found := Text.joined ", " (args.map fun e => e.ty.text)
    .error (.mismatch m.name s!"{target.ty.text}({found})")

def textCall (m : Method) (target : Expr) (needle : String) : Except Error Expr :=
  mkCall m target [.literal (.string needle) .string]

/-- The result is nullable if one of the branches is. -/
def mkConditional (test ifTrue ifFalse : Expr) : Except Error Expr :=
  if test.ty.underlying = .bool ∧ ifTrue.ty.equatable ifFalse.ty then
    .ok (.conditional test ifTrue ifFalse (if ifFalse.ty.isNullable then ifFalse.ty else ifTrue.ty))
  else
    .error (.mismatch "conditional" s!"{test.ty.text} ? {ifTrue.ty.text} : {ifFalse.ty.text}")

def mkConvert (operand : Expr) (ty : Ty) : Except Error Expr :=
  if operand.ty.equatable ty then .ok (.convert operand ty)
  else .error (.mismatch "convert" s!"{operand.ty.text} to {ty.text}")

/-- Each argument has exactly the type of its field. -/
def checkArgs : List Field → List Expr → Except Error Unit
  | f :: fields, e :: es =>
    if e.ty = f.ty then checkArgs fields es
    else .error (.mismatch "constructor" s!"{e.ty.text} for field '{f.name}: {f.ty.text}'")
  | _, _ => .ok ()

def mkConstruct (shape : Shape) (args : List Expr) : Except Error Expr := do
  if args.length ≠ shape.fields.length then
    throw (.mismatch "constructor" s!"{shape.name} with {args.length} arguments")
  checkArgs shape.fields args
  return .construct shape args

/-- The expressions joined by the operator from left to right; no expressions have no join. -/
def fold (op : BinaryOp) : List Expr → Except Error (Option Expr)
  | [] => .ok none
  | e :: es => (es.foldlM (mkBinary op) e).map some

end Expr

end RecordQuery
