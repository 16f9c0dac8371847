import RecordQuery.Expr.Build
import RecordQuery.Expr.Eval
import RecordQuery.Expr.Path
import RecordQuery.Expr.Rebind

/-!
# Functions of one parameter

* `Lambda`: a parameter and a body, written `name => body`;
* `Lambda.invoke`, `Lambda.test`: the value at an argument, and its truth;
* `Lambda.applyTo`: the body over another parameter.
-/

namespace RecordQuery

structure Lambda where
  param : Param
  body : Expr

namespace Lambda

def alwaysTrue (id : Nat) (root : Ty) : Lambda := ⟨⟨id, "x", root⟩, .alwaysTrue⟩

def text (l : Lambda) : String := l.param.name ++ " => " ++ l.body.text

def resultTy (l : Lambda) : Ty := l.body.ty

def memberPaths (l : Lambda) : List String := Expr.memberPaths l.param l.body

/-- The body over the parameter `root`. -/
def applyTo (l : Lambda) (root : Param) : Expr := Expr.rebind l.param (.param root) l.body

def invoke (l : Lambda) (arg : Value) : Except Error Value := l.body.eval l.param arg

/-- The predicate holds for the argument; null counts as false. -/
def test (l : Lambda) (arg : Value) : Except Error Bool := do
  match ← l.invoke arg with
  | .bool b => return b
  | .null => return false
  | value => throw (.evaluation (.notPredicate value.text))

end Lambda

end RecordQuery
