import RecordQuery.Json.Raw
import RecordQuery.Text.Hex

/-!
# Reading JSON documents

* `Json.Raw.read?`: the document that a text is, as written;
* `Json.read?`: its value.

The readers of values, items and members take one unit of fuel for each step inwards or onwards.
Each step consumes a character, so the length of the text is fuel enough.
-/

namespace RecordQuery.Json

namespace Raw

def isSpace (c : Char) : Bool := c == ' ' || c == '\n' || c == '\t' || c == '\r'

def skipSpace (cs : List Char) : List Char := cs.dropWhile isSpace

def escaped? : Char → Option Char
  | '"' => some '"'
  | '\\' => some '\\'
  | '/' => some '/'
  | 'b' => some '\x08'
  | 'f' => some '\x0c'
  | 'n' => some '\n'
  | 'r' => some '\r'
  | 't' => some '\t'
  | _ => none

/-- Reads the rest of a string, up to and with its closing quote. -/
def readPieces? : List Char → Option (List Piece × List Char)
  | [] => none
  | '"' :: cs => some ([], cs)
  | '\\' :: 'u' :: a :: b :: c :: d :: cs => do
    let code ← Text.hexNumber? [a, b, c, d]
    let (ps, cs) ← readPieces? cs
    return (.code code :: ps, cs)
  | '\\' :: c :: cs => do
    let c ← escaped? c
    let (ps, cs) ← readPieces? cs
    return (.char c :: ps, cs)
  | c :: cs => do
    guard (0x20 ≤ c.toNat ∧ c ≠ '\\')
    let (ps, cs) ← readPieces? cs
    return (.char c :: ps, cs)

/-- Takes a non-empty run of digits off the front. -/
def readRun? (cs : List Char) : Option (List Char × List Char) :=
  let ds := cs.takeWhile Char.isDigit
  if ds.isEmpty then none else some (ds, cs.dropWhile Char.isDigit)

def readFraction? : List Char → Option (List Char × List Char)
  | '.' :: cs => readRun? cs
  | cs => some ([], cs)

def readExponent? : List Char → Option (Option (Bool × List Char) × List Char)
  | [] => some (none, [])
  | e :: cs =>
    if e = 'e' ∨ e = 'E' then
      match cs with
      | '-' :: cs => (readRun? cs).map fun (ds, cs) => (some (true, ds), cs)
      | '+' :: cs => (readRun? cs).map fun (ds, cs) => (some (false, ds), cs)
      | cs => (readRun? cs).map fun (ds, cs) => (some (false, ds), cs)
    else some (none, e :: cs)

/-- Takes an unsigned number off the front; only zero itself starts with the digit zero. -/
def readUnsigned? (negative : Bool) (cs : List Char) : Option (Literal × List Char) := do
  let (whole, cs) ← readRun? cs
  guard (whole = ['0'] ∨ whole.head? ≠ some '0')
  let (fraction, cs) ← readFraction? cs
  let (exponent, cs) ← readExponent? cs
  return (⟨negative, whole, fraction, exponent⟩, cs)

def readNumber? : List Char → Option (Literal × List Char)
  | '-' :: cs => readUnsigned? true cs
  | cs => readUnsigned? false cs

mutual

def readValue? : Nat → List Char → Option (Raw × List Char)
  | 0, _ => none
  | fuel + 1, cs =>
    match skipSpace cs with
    | 'n' :: 'u' :: 'l' :: 'l' :: cs => some (.null, cs)
    | 't' :: 'r' :: 'u' :: 'e' :: cs => some (.bool true, cs)
    | 'f' :: 'a' :: 'l' :: 's' :: 'e' :: cs => some (.bool false, cs)
    | '"' :: cs => (readPieces? cs).map fun (ps, cs) => (.string ps, cs)
    | '[' :: cs =>
      match skipSpace cs with
      | ']' :: cs => some (.array [], cs)
      | cs => (readItems? fuel cs).map fun (items, cs) => (.array items, cs)
    | '\x7b' :: cs =>
      match skipSpace cs with
      | '\x7d' :: cs => some (.object [], cs)
      | cs => (readMembers? fuel cs).map fun (members, cs) => (.object members, cs)
    | cs => (readNumber? cs).map fun (l, cs) => (.number l, cs)

/-- Takes one or more items off the front, with the closing bracket. -/
def readItems? : Nat → List Char → Option (List Raw × List Char)
  | 0, _ => none
  | fuel + 1, cs => do
    let (item, cs) ← readValue? fuel cs
    match skipSpace cs with
    | ',' :: cs =>
      let (items, cs) ← readItems? fuel cs
      return (item :: items, cs)
    | ']' :: cs => return ([item], cs)
    | _ => none

def readMembers? : Nat → List Char → Option (List (List Piece × Raw) × List Char)
  | 0, _ => none
  | fuel + 1, cs => do
    let '"' :: cs := skipSpace cs | none
    let (key, cs) ← readPieces? cs
    let ':' :: cs := skipSpace cs | none
    let (item, cs) ← readValue? fuel cs
    match skipSpace cs with
    | ',' :: cs =>
      let (members, cs) ← readMembers? fuel cs
      return ((key, item) :: members, cs)
    | '\x7d' :: cs => return ([(key, item)], cs)
    | _ => none

end

def readChars? (cs : List Char) : Option Raw :=
  match readValue? (cs.length + 1) cs with
  | some (raw, rest) => if (skipSpace rest).isEmpty then some raw else none
  | none => none

def read? (text : String) : Option Raw := readChars? text.toList

end Raw

def read? (text : String) : Option Json := (Raw.read? text).bind (·.toJson? Raw.maxDepth)

end RecordQuery.Json
