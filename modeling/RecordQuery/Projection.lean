import RecordQuery.Mapping
import RecordQuery.Options.Basic
import RecordQuery.Shape.Cache

/-!
# Projections

* `Projection`: a function that makes instances of one shape;
* `Projection.draft`: the named expressions of a list of mappings;
* `Projection.assemble`: the function that gives each field of a shape its expression;
* `Projection.compile`: both, with the shape taken from a cache;
* `Projection.apply`: the instance for one root value.

All mappings are drafted before the cache is used, so one that is refused leaves no shape behind.
-/

namespace RecordQuery

/-- A function to instances of a shape. -/
structure Projection where
  lambda : Lambda
  shape : Shape

namespace Projection

def draft (s : Schema) (root : Param) (ms : List Mapping) : Except Error (List (String × Expr)) :=
  ms.mapM fun m => return (m.name, ← m.expr s root)

def fields (exprs : List (String × Expr)) : List Field := exprs.map fun (name, e) => ⟨name, e.ty⟩

def argument (exprs : List (String × Expr)) (f : Field) : Except Error Expr :=
  (exprs.lookup f.name).elim (.error (.mapping f.name .unproduced)) .ok

def assemble (root : Param) (shape : Shape) (exprs : List (String × Expr)) :
    Except Error Projection := do
  let args ← shape.fields.mapM (argument exprs)
  return ⟨⟨root, ← Expr.mkConstruct shape args⟩, shape⟩

/-- The projection of the mappings over the root parameter, with the shape from the named cache. -/
def compile (s : Schema) (ms : List Mapping) (root : Param) (cache : String) (r : Shape.Registry) :
    Except Error Projection × Shape.Registry :=
  match draft s root ms with
  | .error e => (.error e, r)
  | .ok exprs =>
    match r.getOrCreate cache (fields exprs) with
    | .error e => (.error e, r)
    | .ok (shape, r) => (assemble root shape exprs, r)

def rootParam (o : Options) (id : Nat) (root : Ty) : Param := ⟨id, o.projectionRoot, root⟩

def apply (p : Projection) (root : Value) : Except Error Value := do
  match ← p.lambda.invoke root with
  | .shape shape values => return .shape shape values
  | value => throw (.evaluation (.notShape value.text))

end Projection

end RecordQuery
