import RecordQuery.Shape.Basic

/-!
# Caches of shapes

* `Shape.Cache`: shapes by the key of their fields, with counts of the lookups;
* `Shape.Cache.getOrCreate`: the shape of a field list, made at most once;
* `Shape.Registry`: named caches whose shapes are numbered together.

Nothing is ever removed from a cache. A refused field list changes nothing.
-/

namespace RecordQuery.Shape

structure Cache where
  entries : List (String × Shape)
  hits : Nat
  misses : Nat
  deriving DecidableEq, Repr

namespace Cache

def empty : Cache := ⟨[], 0, 0⟩

def size (c : Cache) : Nat := c.entries.length

def find? (c : Cache) (key : String) : Option Shape := c.entries.lookup key

/-- The shape of a number. -/
def get? (c : Cache) (id : Nat) : Option Shape := (c.entries.find? (·.2.id == id)).map (·.2)

/-- The shape of the fields; a new one takes the number `next`. Returns the next free number. -/
def getOrCreate (c : Cache) (next : Nat) (fields : List Field) :
    Except Error (Shape × Cache × Nat) := do
  let key ← Signature.read fields
  match c.find? key with
  | some shape => return (shape, { c with hits := c.hits + 1 }, next)
  | none =>
    let shape : Shape := ⟨next, fields⟩
    let entries := c.entries ++ [(key, shape)]
    return (shape, { c with entries, misses := c.misses + 1 }, next + 1)

end Cache

/-- Named caches whose shapes are numbered together. -/
structure Registry where
  next : Nat
  caches : List (String × Cache)
  deriving DecidableEq, Repr

namespace Registry

def empty : Registry := ⟨1, []⟩

/-- The cache of a name, which is empty before its first use. -/
def cache (r : Registry) (name : String) : Cache := (r.caches.lookup name).getD .empty

def setCache (r : Registry) (name : String) (c : Cache) : Registry :=
  { r with caches := (name, c) :: r.caches.filter (·.1 != name) }

/-- The shape of the fields in the cache of a name. -/
def getOrCreate (r : Registry) (name : String) (fields : List Field) :
    Except Error (Shape × Registry) := do
  let (shape, c, next) ← (r.cache name).getOrCreate r.next fields
  return (shape, { r.setCache name c with next })

end Registry

end RecordQuery.Shape
