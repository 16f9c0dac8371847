import RecordQuery.Number.Binary64
import RecordQuery.Number.Integer

/-!
# JSON values

* `Json`, `Json.Number`: a value; the entries of an object are sorted by key and have distinct keys;
* `Json.insertEntry`, `Json.ofEntries`: an object from entries, of which the last of a key counts;
* `Json.Number.int64?`, `Json.Number.toFloat`: a number as an integer of 64 bits, or as a float.
-/

namespace RecordQuery

namespace Json

/-- A number: an integer that 64 bits hold, signed or unsigned, or a float. -/
inductive Number
  | integer (n : Int)
  | float (x : Binary64)
  deriving DecidableEq

def Number.int64? : Number → Option Int64
  | .integer n => if -Integer.limit ≤ n ∧ n < Integer.limit then some (.ofInt n) else none
  | .float _ => none

def Number.toFloat : Number → Binary64
  | .integer n => .ofInt n
  | .float x => x

end Json

inductive Json
  | null
  | bool (b : Bool)
  | number (n : Json.Number)
  | string (s : String)
  | array (items : List Json)
  | object (entries : List (String × Json))

namespace Json

/-- Puts an entry in its place by key, in place of any earlier entry of the key. -/
def insertEntry (key : String) (value : Json) : List (String × Json) → List (String × Json)
  | [] => [(key, value)]
  | (k, v) :: entries =>
    if key = k then (key, value) :: entries
    else if key < k then (key, value) :: (k, v) :: entries
    else (k, v) :: insertEntry key value entries

/-- The object of the entries, of which the last of a key counts. -/
def ofEntries (entries : List (String × Json)) : Json :=
  .object (entries.foldl (fun acc (key, value) => insertEntry key value acc) [])

end Json

end RecordQuery
