import RecordQuery.Number.Binary64

/-!
# TOML values

* `Toml`: a value; a table remembers what wrote it, since that decides what may be added to it;
* `Toml.Edit`, `Toml.edit`: a change of a table, and one of the table at the end of a path;
* `Toml.put`, `Toml.openTable`, `Toml.pushTable`: what an entry, a header and a header of an array
  do.

A key is set at most once. A header may name a table that other headers have only passed through,
and no other. Dotted keys add to tables that dotted keys made.
-/

namespace RecordQuery

inductive Toml.Origin
  /-- A table in braces, which is complete. -/
  | inline
  | header
  /-- A header of a table further inside. -/
  | implied
  | dotted
  deriving DecidableEq, Repr

inductive Toml
  | string (s : String)
  | integer (n : Int64)
  | float (x : Binary64)
  | bool (b : Bool)
  /-- A date, a time of day or both, as written. -/
  | moment (s : String)
  | array (items : List Toml)
  | table (origin : Toml.Origin) (entries : List (String × Toml))
  | tables (items : List (List (String × Toml)))

namespace Toml

def replace (key : String) (value : Toml) : List (String × Toml) → List (String × Toml)
  | [] => []
  | (k, v) :: entries =>
    if k = key then (k, value) :: entries else (k, v) :: replace key value entries

/-- A change of a table, unless it is refused. -/
abbrev Edit := Origin → List (String × Toml) → Option (Origin × List (String × Toml))

/-- A path that makes tables of the origin `made` may pass a table. -/
def passes (made : Origin) : Origin → Bool
  | .inline => false
  | .header => made != .dotted
  | .implied | .dotted => true

/-- Changes the table at the end of a path. Missing tables are made, and of an array of tables the
last one counts. -/
def edit (made : Origin) (change : Edit) : List String → Edit
  | [], origin, entries => change origin entries
  | key :: path, origin, entries =>
    match entries.lookup key with
    | none => do
      let (o, inner) ← edit made change path made []
      return (origin, entries ++ [(key, .table o inner)])
    | some (.table o inner) => do
      guard (passes made o)
      let (o, inner) ← edit made change path o inner
      return (origin, replace key (.table o inner) entries)
    | some (.tables items) => do
      let (_, inner) ← edit made change path .header (← items.getLast?)
      return (origin, replace key (.tables (items.dropLast ++ [inner])) entries)
    | some _ => none

/-- Sets a new key of a table. A dotted key can do so only where dotted keys made the table. -/
def put (isDotted : Bool) (key : String) (value : Toml) : Edit := fun origin entries => do
  guard (isDotted = (origin == .dotted) ∧ (entries.lookup key).isNone)
  return (origin, entries ++ [(key, value)])

def putPath (path : List String) (value : Toml) : Edit := fun origin entries => do
  let key ← path.getLast?
  edit .dotted (put (1 < path.length) key value) path.dropLast origin entries

def openTable (key : String) : Edit := fun origin entries =>
  match entries.lookup key with
  | none => some (origin, entries ++ [(key, .table .header [])])
  | some (.table .implied inner) => some (origin, replace key (.table .header inner) entries)
  | some _ => none

def pushTable (key : String) : Edit := fun origin entries =>
  match entries.lookup key with
  | none => some (origin, entries ++ [(key, .tables [[]])])
  | some (.tables items) => some (origin, replace key (.tables (items ++ [[]])) entries)
  | some _ => none

def ofPairs? (pairs : List (List String × Toml)) : Option Toml := do
  let (origin, entries) ← pairs.foldlM
    (fun (origin, entries) (path, value) => putPath path value origin entries) (.inline, [])
  return .table origin entries

/-! ## Documents -/

inductive Line
  | header (path : List String)
  | arrayHeader (path : List String)
  | entry (path : List String) (value : Toml)

/-- The tables read so far, and the path of the one that entries go to. -/
structure Draft where
  entries : List (String × Toml)
  current : List String

def Draft.add? (d : Draft) : Line → Option Draft
  | .header path => do
    let key ← path.getLast?
    let (_, entries) ← edit .implied (openTable key) path.dropLast .header d.entries
    return ⟨entries, path⟩
  | .arrayHeader path => do
    let key ← path.getLast?
    let (_, entries) ← edit .implied (pushTable key) path.dropLast .header d.entries
    return ⟨entries, path⟩
  | .entry path value => do
    let (_, entries) ← edit .implied (putPath path value) d.current .header d.entries
    return ⟨entries, d.current⟩

def ofLines? (lines : List Line) : Option (List (String × Toml)) :=
  (lines.foldlM Draft.add? ⟨[], []⟩).map Draft.entries

end Toml

end RecordQuery
