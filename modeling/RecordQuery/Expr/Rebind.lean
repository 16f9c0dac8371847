import RecordQuery.Expr.Basic

/-!
# Parameters of expressions

* `Expr.rebind`: an expression in place of a parameter;
* `Expr.params`, `Expr.freeParams`: the references to parameters, and the distinct ones among them.

Expressions bind no parameters, so nothing is captured.
-/

namespace RecordQuery.Expr

mutual

/-- The expression with `image` in place of every reference to the parameter. -/
def rebind (p : Param) (image : Expr) : Expr → Expr
  | .param q => if q.id = p.id then image else .param q
  | .field target name ty => .field (rebind p image target) name ty
  | .literal value ty => .literal value ty
  | .binary op left right => .binary op (rebind p image left) (rebind p image right)
  | .not operand => .not (rebind p image operand)
  | .call m target args => .call m (rebind p image target) (rebindAll p image args)
  | .conditional test ifTrue ifFalse ty =>
    .conditional (rebind p image test) (rebind p image ifTrue) (rebind p image ifFalse) ty
  | .convert operand ty => .convert (rebind p image operand) ty
  | .construct shape args => .construct shape (rebindAll p image args)

def rebindAll (p : Param) (image : Expr) : List Expr → List Expr
  | [] => []
  | e :: es => rebind p image e :: rebindAll p image es

end

mutual

def params : Expr → List Param
  | .param p => [p]
  | .literal .. => []
  | .field target _ _ => target.params
  | .binary _ left right => left.params ++ right.params
  | .not operand | .convert operand _ => operand.params
  | .call _ target args => target.params ++ paramsAll args
  | .conditional test ifTrue ifFalse _ => test.params ++ ifTrue.params ++ ifFalse.params
  | .construct _ args => paramsAll args

def paramsAll : List Expr → List Param
  | [] => []
  | e :: es => e.params ++ paramsAll es

end

def addParam (ps : List Param) (p : Param) : List Param :=
  if ps.any (·.id == p.id) then ps else ps ++ [p]

/-- The distinct parameters, in the order of their first references. -/
def freeParams (e : Expr) : List Param := e.params.foldl addParam []

end RecordQuery.Expr
