import RecordQuery.Calendar.DateTime
import RecordQuery.Number.Decimal
import RecordQuery.Text.Hex
import RecordQuery.Toml.Basic

/-!
# TOML numbers and moments

* `Toml.isBare`: the characters of values without quotes and brackets;
* `Toml.ofBare?`: the value that a run of them denotes.

Underscores may stand between digits. Integers have 64 bits. A positive number beyond the greatest
float is refused.
-/

namespace RecordQuery.Toml

def isKeyChar (c : Char) : Bool := c.isAlphanum || c == '_' || c == '-'

def isBare (c : Char) : Bool := isKeyChar c || c == '+' || c == '.' || c == ':'

/-- The digits without the underscores between them. -/
def digits? (isDigit : Char → Bool) : List Char → Option (List Char)
  | [] => none
  | [c] => if isDigit c then some [c] else none
  | c :: '_' :: cs => if isDigit c then (digits? isDigit cs).map (c :: ·) else none
  | c :: cs => if isDigit c then (digits? isDigit cs).map (c :: ·) else none

/-- Decimal digits that start with zero only if they are zero. -/
def whole? (cs : List Char) : Option (List Char) := do
  let ds ← digits? Char.isDigit cs
  guard (ds = ['0'] ∨ ds.head? ≠ some '0')
  return ds

/-- Takes a sign off the front, true for minus. -/
def takeSign : List Char → Bool × List Char
  | '-' :: cs => (true, cs)
  | '+' :: cs => (false, cs)
  | cs => (false, cs)

def based? (base : Nat) (cs : List Char) : Option Int64 := do
  let isDigit (c : Char) : Bool := (Text.hexDigit? c).any fun d => decide (d.val < base)
  let ds ← digits? isDigit cs
  let n := (ds.filterMap Text.hexDigit?).foldl (fun n d => base * n + d.val) 0
  guard (n < Integer.limit)
  return .ofInt n

def integer? : List Char → Option Int64
  | '0' :: 'x' :: cs => based? 16 cs
  | '0' :: 'o' :: cs => based? 8 cs
  | '0' :: 'b' :: cs => based? 2 cs
  | cs => do
    let (negative, cs) := takeSign cs
    let ds ← whole? cs
    Integer.read? (if negative then '-' :: ds else ds)

def exponent? : List Char → Option Int
  | [] => some 0
  | e :: cs => do
    guard (e = 'e' ∨ e = 'E')
    let (negative, cs) := takeSign cs
    let n : Int := Decimal.value (← digits? Char.isDigit cs)
    return if negative then -n else n

def fraction? : List Char → Option (List Char × List Char)
  | '.' :: cs =>
    let isPart (c : Char) : Bool := c.isDigit || c == '_'
    (digits? Char.isDigit (cs.takeWhile isPart)).map (·, cs.dropWhile isPart)
  | cs => some ([], cs)

def float? (cs : List Char) : Option Binary64 := do
  let (negative, cs) := takeSign cs
  if cs = "inf".toList then return .infinite negative
  if cs = "nan".toList then return .nan
  let isPart (c : Char) : Bool := c.isDigit || c == '_'
  let whole ← whole? (cs.takeWhile isPart)
  let rest := cs.dropWhile isPart
  guard !rest.isEmpty
  let (fraction, rest) ← fraction? rest
  let e ← exponent? rest
  let x := Binary64.ofDecimal negative (Decimal.value (whole ++ fraction)) (e - fraction.length)
  guard (x ≠ .infinite false)
  return x

/-! ## Moments -/

/-- Takes a time of day off the front, in which second 60 is admitted. -/
def takeTime? (cs : List Char) : Option (List Char) := do
  let ((hour, minute, second), cs) ← TimeOfDay.readParts? cs
  guard (hour < 24 ∧ minute < 60 ∧ second ≤ 60)
  let (_, cs) ← Zoned.readFraction? cs
  return cs

/-- A date that may go on with a time of day and an offset. -/
def isDated (cs : List Char) : Bool :=
  let found := do
    let (year, cs) ← Calendar.digits? 4 cs
    let (_, cs) ← Date.readInYear? year cs
    match cs with
    | [] => pure ()
    | separator :: cs =>
      guard (separator = 'T' ∨ separator = 't' ∨ separator = ' ')
      let cs ← takeTime? cs
      guard (cs.isEmpty || (Zoned.readOffset? cs).isSome)
  found.isSome

def isMoment (cs : List Char) : Bool := isDated cs || takeTime? cs == some []

def ofBare? (cs : List Char) : Option Toml :=
  if cs = "true".toList then some (.bool true)
  else if cs = "false".toList then some (.bool false)
  else if isMoment cs then some (.moment (.ofList cs))
  else (integer? cs).map .integer <|> (float? cs).map .float

end RecordQuery.Toml
