import RecordQuery.Text.Quoted
import RecordQuery.Value.Basic

/-!
# Expressions

* `Param`: a parameter, which its number identifies;
* `BinaryOp`, `Method`: the operators and the methods, with the symbols and names they are written
  by;
* `Expr`: expressions; a node carries the types that its operands do not determine;
* `Expr.ty`: the static type;
* `Expr.text`: the written form.
-/

namespace RecordQuery

/-- A parameter. Two parameters of one number are the same, whatever their names. -/
structure Param where
  id : Nat
  name : String
  ty : Ty
  deriving DecidableEq, Repr

inductive BinaryOp
  | equal
  | notEqual
  | less
  | lessOrEqual
  | greater
  | greaterOrEqual
  | and
  | or
  deriving DecidableEq, Repr

def BinaryOp.symbol : BinaryOp → String
  | .equal => "=="
  | .notEqual => "!="
  | .less => "<"
  | .lessOrEqual => "<="
  | .greater => ">"
  | .greaterOrEqual => ">="
  | .and => "&&"
  | .or => "||"

inductive Method
  | startsWith
  | endsWith
  | contains
  | equals
  | toText
  | listContains
  deriving DecidableEq, Repr

/-- The name of a method; lists share one with text. -/
def Method.name : Method → String
  | .startsWith => "starts_with"
  | .endsWith => "ends_with"
  | .contains | .listContains => "contains"
  | .equals => "equals"
  | .toText => "to_text"

inductive Expr
  | param (p : Param)
  | field (target : Expr) (name : String) (ty : Ty)
  | literal (value : Value) (ty : Ty)
  | binary (op : BinaryOp) (left right : Expr)
  | not (operand : Expr)
  | call (method : Method) (target : Expr) (args : List Expr)
  | conditional (test ifTrue ifFalse : Expr) (ty : Ty)
  /-- Takes a value from a type to its nullable form, or back. -/
  | convert (operand : Expr) (ty : Ty)
  /-- Makes an instance of a shape from one argument for each field. -/
  | construct (shape : Shape) (args : List Expr)

namespace Expr

def ty : Expr → Ty
  | .param p => p.ty
  | .field _ _ ty | .literal _ ty | .conditional _ _ _ ty | .convert _ ty => ty
  | .binary .. | .not _ => .bool
  | .call .toText _ _ => .string
  | .call .. => .bool
  | .construct shape _ => shape.ty

end Expr

/-! ## Written form -/

mutual

/-- A constant: text, identifiers and times in quotes, lists item by item. -/
def Value.constantText : Value → String
  | .null => "null"
  | .string s => Text.quoted s
  | .uuid u => Text.quoted (text (.uuid u))
  | .date d => Text.quoted (text (.date d))
  | .dateTime t => Text.quoted (text (.dateTime t))
  | .list items => "[" ++ Text.joined ", " (constantTexts items) ++ "]"
  | value => value.text

def Value.constantTexts : List Value → List String
  | [] => []
  | v :: vs => v.constantText :: constantTexts vs

end

namespace Expr

mutual

/-- The written form; binary and conditional expressions are in parentheses. -/
def text : Expr → String
  | .param p => p.name
  | .field target name _ => target.text ++ "." ++ name
  | .literal value _ => value.constantText
  | .binary op left right => "(" ++ left.text ++ " " ++ op.symbol ++ " " ++ right.text ++ ")"
  | .not operand => "!" ++ operand.text
  | .call method target args =>
    target.text ++ "." ++ method.name ++ "(" ++ Text.joined ", " (texts args) ++ ")"
  | .conditional test ifTrue ifFalse _ =>
    "(" ++ test.text ++ " ? " ++ ifTrue.text ++ " : " ++ ifFalse.text ++ ")"
  | .convert operand ty => "(" ++ ty.text ++ ")" ++ operand.text
  | .construct shape args => "new " ++ shape.name ++ "(" ++ Text.joined ", " (texts args) ++ ")"

def texts : List Expr → List String
  | [] => []
  | e :: es => e.text :: texts es

end

end Expr

end RecordQuery
