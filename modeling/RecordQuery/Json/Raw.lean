import RecordQuery.Json.Basic
import RecordQuery.Number.Decimal

/-!
# JSON documents as written

The grammar of a document says less than its values: an object may repeat a key, an escape may be
half of a surrogate pair, and a number may be out of range. A part that nobody reads may do all
that.

* `Json.Raw`: a document as written;
* `Json.Raw.decode?`: the text of a string, whose surrogate escapes have to come in pairs;
* `Json.Number.ofLiteral?`: the value of a number;
* `Json.Raw.toJson?`: the value of a document that is nested less than 128 deep;
* `Json.Raw.slots?`: a document read as a structure, an object by keys or an array by position.
-/

namespace RecordQuery.Json

/-- A character of a string as written, or the code of an escape `\u`. -/
inductive Raw.Piece
  | char (c : Char)
  | code (n : Nat)

/-- A number as written. Without a point the fraction is empty. -/
structure Raw.Literal where
  negative : Bool
  whole : List Char
  fraction : List Char
  exponent : Option (Bool × List Char)

inductive Raw
  | null
  | bool (b : Bool)
  | number (l : Raw.Literal)
  | string (ps : List Raw.Piece)
  | array (items : List Raw)
  | object (members : List (List Raw.Piece × Raw))

/-! ## Strings -/

/-- The characters of a string; a surrogate that is not half of a pair has none. -/
def Raw.decode? : List Raw.Piece → Option (List Char)
  | [] => some []
  | .char c :: ps => (decode? ps).map (c :: ·)
  | .code n :: ps =>
    if n < 0xD800 ∨ 0xDFFF < n then (decode? ps).map (Char.ofNat n :: ·)
    else match ps with
      | .code m :: ps =>
        if n < 0xDC00 ∧ 0xDC00 ≤ m ∧ m ≤ 0xDFFF then
          (decode? ps).map (Char.ofNat (0x10000 + (n - 0xD800) * 0x400 + (m - 0xDC00)) :: ·)
        else none
      | _ => none

def Raw.string? : Raw → Option String
  | .string ps => (decode? ps).map .ofList
  | _ => none

/-! ## Numbers

An integer that fits 64 bits is exact. Any other number starts from as many leading digits as an
unsigned integer of 64 bits holds, and is scaled by powers of ten in floating point, which rounds at
each step.
-/

namespace Number

/-- Appends digits while 64 bits hold the result; returns it with the digits that are left. -/
def takeDigits (acc : Nat) : List Char → Nat × List Char
  | [] => (acc, [])
  | c :: cs =>
    let next := 10 * acc + (c.toNat - '0'.toNat)
    if next < 2 * Integer.limit then takeDigits next cs else (acc, c :: cs)

/-- Multiplies by `10 ^ e` with tabled powers up to `10 ^ 308`; a number out of range has no value.
-/
def scale? (x : Binary64) (e : Int) : Option Binary64 :=
  if 0 ≤ e then
    if e ≤ 308 then
      let y := x.mul (.ofDecimal false 1 e)
      if y.isFinite then some y else none
    else if x.eqv (.zero false) then some x else none
  else if -308 ≤ e then some (x.div (.ofDecimal false 1 (-e)))
  else if x.eqv (.zero false) then some x
  else scale? (x.div (.ofDecimal false 1 308)) (e + 308)
termination_by (-e).toNat

def ofParts? (negative : Bool) (n : Nat) (e : Int) : Option Number :=
  (scale? (.ofInt n) e).map fun x => .float (if negative then x.neg else x)

/-- The value of a number as written, unless it is out of range. -/
def ofLiteral? (l : Raw.Literal) : Option Number :=
  let (n, dropped) := takeDigits 0 l.whole
  if l.fraction.isEmpty && l.exponent.isNone && dropped.isEmpty then
    if l.negative then
      if n = 0 ∨ Integer.limit < n then some (.float (Binary64.neg (.ofInt n)))
      else some (.integer (-n))
    else some (.integer n)
  else
    let (n, unused) := takeDigits n l.fraction
    let e := (dropped.length : Int) - (l.fraction.length - unused.length : Nat)
    match l.exponent with
    | none => ofParts? l.negative n e
    | some (negative, ds) =>
      let given := Decimal.value ds
      if 2147483648 ≤ given then
        if n ≠ 0 ∧ !negative then none else some (.float (.zero l.negative))
      else ofParts? l.negative n (if negative then e - given else e + given)

end Number

def Raw.int64? : Raw → Option Int64
  | .number l => (Number.ofLiteral? l).bind Number.int64?
  | _ => none

/-! ## Values -/

namespace Raw

mutual

/-- The value of a document, in which at most `depth` containers are inside one another. -/
def toJson? (depth : Nat) : Raw → Option Json
  | .null => some .null
  | .bool b => some (.bool b)
  | .number l => (Number.ofLiteral? l).map .number
  | .string ps => (decode? ps).map (.string <| .ofList ·)
  | .array items => if depth = 0 then none else (itemsToJson? (depth - 1) items).map .array
  | .object members =>
    if depth = 0 then none else (membersToJson? (depth - 1) members).map ofEntries

def itemsToJson? (depth : Nat) : List Raw → Option (List Json)
  | [] => some []
  | item :: items => do
    let value ← toJson? depth item
    let values ← itemsToJson? depth items
    return value :: values

def membersToJson? (depth : Nat) : List (List Piece × Raw) → Option (List (String × Json))
  | [] => some []
  | (key, item) :: members => do
    let key ← decode? key
    let value ← toJson? depth item
    let entries ← membersToJson? depth members
    return (.ofList key, value) :: entries

end

def maxDepth : Nat := 127

/-! ## Structures -/

def keyed? (members : List (List Piece × Raw)) : Option (List (String × Raw)) :=
  members.mapM fun (key, item) => (decode? key).map fun cs => (.ofList cs, item)

/-- The slot of a key, which may be absent but not repeated. -/
def slot? (entries : List (String × Raw)) (key : String) : Option (Option Raw) :=
  match entries.filter (·.1 == key) with
  | [] => some none
  | [(_, item)] => some (some item)
  | _ => none

/-- The slots of a structure: an object gives them by key and may have other keys, an array gives
them by position and may be shorter. -/
def slots? (keys : List String) : Raw → Option (List (Option Raw))
  | .object members => (keyed? members).bind fun entries => keys.mapM (slot? entries)
  | .array items =>
    if items.length ≤ keys.length then
      some (items.map some ++ List.replicate (keys.length - items.length) none)
    else none
  | _ => none

end Raw

end RecordQuery.Json
