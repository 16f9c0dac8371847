import RecordQuery.Error
import RecordQuery.Expr.Basic

/-!
# Values of expressions

* `Value.readField`, `Value.truth`, `Value.equal`: fields, truth values and equality with null;
* `junction`, `BinaryOp.compare`, `Method.apply`: the operators and methods on values;
* `Expr.eval`: the value of an expression under a value of one parameter.

Null spreads through field reads and calls, equals only itself, and stands in no order to anything.
The connectives have three truth values and do not look at the right operand when the left one
decides.
-/

namespace RecordQuery

namespace Value

/-- The field of a record or of an instance; a field that a record lacks is null. -/
def readField (name : String) : Value → Except Error Value
  | .null => .ok .null
  | .record fields => .ok ((get? fields name).getD .null)
  | .shape s values =>
    (slot? s values name).elim (.error (.evaluation (.missingField s.name name))) .ok
  | value => .error (.evaluation (.notReadable name value.text))

/-- The truth value, which is unknown for null. -/
def truth : Value → Except Error (Option Bool)
  | .bool b => .ok (some b)
  | .null => .ok none
  | value => .error (.evaluation (.notBoolean value.text))

def ofTruth : Option Bool → Value
  | some b => .bool b
  | none => .null

/-- Equality as expressions see it. Integers and floats are equal if they compare so. -/
def equal (a b : Value) : Bool :=
  match a, b with
  | .null, .null => true
  | .null, _ | _, .null => false
  | a, b => a.eqv b || a.compare b == some .eq

end Value

/-! ## Operators and methods -/

/-- The truth value of a connective for which `decisive` alone decides: false for `and`, true for
`or`. -/
def junction (decisive : Bool) (a b : Option Bool) : Option Bool :=
  if a = some decisive ∨ b = some decisive then some decisive
  else if a.isNone ∨ b.isNone then none
  else some !decisive

namespace BinaryOp

def decisive? : BinaryOp → Option Bool
  | .and => some false
  | .or => some true
  | _ => none

def admits : BinaryOp → Ordering → Bool
  | .less, o => o == .lt
  | .lessOrEqual, o => o != .gt
  | .greater, o => o == .gt
  | .greaterOrEqual, o => o != .lt
  | .equal, o => o == .eq
  | .notEqual, o => o != .eq
  | _, _ => false

/-- Compares two values; nothing is ordered before or after null. -/
def compare (op : BinaryOp) (left right : Value) : Except Error Value :=
  match op with
  | .equal => .ok (.bool (left.equal right))
  | .notEqual => .ok (.bool !(left.equal right))
  | op =>
    if left.isNull || right.isNull then .ok (.bool false)
    else
      match left.compare right with
      | some o => .ok (.bool (op.admits o))
      | none => .error (.evaluation (.unordered left.text right.text))

end BinaryOp

namespace Method

def holds : Method → String → String → Bool
  | .startsWith, s, t => Text.startsWith s t
  | .endsWith, s, t => Text.endsWith s t
  | .contains, s, t => Text.contains s t
  | _, s, t => s == t

/-- Calls the method on a target; the outcome is null if an operand is. -/
def apply (m : Method) (target : Value) (args : List Value) : Except Error Value :=
  match m, target with
  | .listContains, .list items => .ok (.bool (items.any (·.equal (args.headD .null))))
  | .listContains, _ => .ok .null
  | _, .null => .ok .null
  | .toText, target => .ok (.string target.text)
  | m, target =>
    match target, args.headD .null with
    | .string s, .string t => .ok (.bool (m.holds s t))
    | _, .null => .ok .null
    | _, _ => .error (.evaluation (.notText m.name))

end Method

/-! ## Expressions -/

namespace Expr

mutual

def eval (p : Param) (arg : Value) : Expr → Except Error Value
  | .param q => if q.id = p.id then .ok arg else .error (.evaluation (.unbound q.name))
  | .field target name _ => do (← target.eval p arg).readField name
  | .literal value _ => .ok value
  | .binary op left right => do
    let l ← left.eval p arg
    match op.decisive? with
    | some decisive =>
      let a ← l.truth
      if a = some decisive then return .bool decisive
      let b ← (← right.eval p arg).truth
      return .ofTruth (junction decisive a b)
    | none => op.compare l (← right.eval p arg)
  | .not operand => do return .ofTruth ((← (← operand.eval p arg).truth).map (!·))
  | .call m target args => do m.apply (← target.eval p arg) (← evalAll p arg args)
  | .conditional test ifTrue ifFalse _ => do
    if (← (← test.eval p arg).truth) = some true then ifTrue.eval p arg else ifFalse.eval p arg
  | .convert operand ty => do
    let value ← operand.eval p arg
    if value.isNull && !ty.admitsNull then throw (.evaluation (.nullConversion ty.text))
    return value
  | .construct shape args => do shape.construct (← evalAll p arg args)

/-- The values of expressions from left to right, up to the first error. -/
def evalAll (p : Param) (arg : Value) : List Expr → Except Error (List Value)
  | [] => .ok []
  | e :: es => do
    let value ← e.eval p arg
    let values ← evalAll p arg es
    return value :: values

end

end Expr

end RecordQuery
