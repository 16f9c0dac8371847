import RecordQuery.Lambda

/-!
# Mappings

* `Mapping`: one field of a projection, copied from a path or computed by a function;
* `Mapping.ofLambda`: a computed field, if its function refers to no other parameter than its own;
* `Mapping.expr`: the expression of the field over a root parameter.
-/

namespace RecordQuery

/-- The body refers to no other parameter than the function's own. -/
def Lambda.IsClosed (l : Lambda) : Prop := ∀ q ∈ l.body.freeParams, q.id = l.param.id

inductive Mapping
  | direct (name path : String)
  | computed (name : String) (lambda : Lambda) (closed : lambda.IsClosed)

namespace Mapping

def name : Mapping → String
  | .direct name _ => name
  | .computed name _ _ => name

def ofLambda (name : String) (l : Lambda) : Except Error Mapping :=
  match h : l.body.freeParams.find? (·.id != l.param.id) with
  | some q => .error (.mapping name (.strayParameter q.name))
  | none => .ok (.computed name l fun q hq => by simpa using List.find?_eq_none.1 h q hq)

def expr (s : Schema) (root : Param) : Mapping → Except Error Expr
  | .direct _ path => Expr.resolve s (.param root) path
  | .computed name l _ =>
    if l.param.ty = root.ty then .ok (l.applyTo root)
    else .error (.mapping name (.otherRoot l.param.ty.text root.ty.text))

def resultTy (s : Schema) (root : Param) (m : Mapping) : Except Error Ty :=
  (m.expr s root).map Expr.ty

end Mapping

end RecordQuery
