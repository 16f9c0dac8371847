import RecordQuery.Number.Integer
import RecordQuery.Number.Binary64

/-!
# Floating-point numbers as decimal text

* `Decimal.shortest`: the fewest digits that read back as the number, and of those the nearest;
* `Decimal.Style`, `Decimal.render`: where the point and the exponent are written;
* `Binary64.text`: the positional text of any number;
* `Binary64.read`: an optional sign, then digits with an optional point and exponent, or the name of
  an infinity or of `nan`.

The reals that round to a number form an interval around it, closed exactly when its significand is
even. On the grid of the decimals with `k` digits only the two neighbours of the number can be the
nearest ones inside, so the first `k` with a neighbour inside gives the fewest digits.
-/

namespace RecordQuery

namespace Decimal

/-- A positive decimal `0.d₁d₂… × 10 ^ point`. -/
structure Digits where
  digits : List Char
  point : Int

inductive Tie
  | up
  | even

/-! ## Shortest digits -/

/-- The exponent `p` with `10 ^ (p - 1) ≤ x < 10 ^ p`, for `x` of the given units. -/
def magnitude (units : Nat) : Int :=
  let whole := units / Binary64.unit
  if whole ≠ 0 then (Nat.toDigits 10 whole).length
  else -(((List.range 330).find? fun j => Binary64.unit ≤ units * Nat.pow 10 (j + 1)).getD 0)

/-- The decimal multiple of `10 ^ scale` next to the number that reads back as it. -/
def neighbour? (tie : Tie) (units : Nat) (scale : Int) : Option Nat :=
  let up := Nat.pow 10 (-scale).toNat
  let num := units * up
  let den := Binary64.unit * Nat.pow 10 scale.toNat
  let s := Binary64.spareBits units
  let above := Nat.pow 2 s
  let below := if units = Nat.pow 2 (52 + s) ∧ s ≠ 0 then Nat.pow 2 (s - 1) else above
  let low := (2 * units - below) * up
  let high := (2 * units + above) * up
  let closed := units / above % 2 = 0
  let inside (c : Nat) : Bool :=
    let x := 2 * c * den
    if closed then low ≤ x && x ≤ high else low < x && x < high
  let c := num / den
  match inside c, inside (c + 1) with
  | true, false => some c
  | false, true => some (c + 1)
  | false, false => none
  | true, true =>
    let r := 2 * (num % den)
    if r < den then some c
    else if den < r then some (c + 1)
    else match tie with
      | .up => some (c + 1)
      | .even => some (c + c % 2)

/-- The fewest digits that read back as the positive number of the given units; 17 suffice. -/
def shortest (tie : Tie) (units : Nat) : Digits :=
  let p := magnitude units
  let found := (List.range 17).findSome? fun (k : Nat) =>
    let scale := p - (k + 1)
    (neighbour? tie units scale).map fun c => (Nat.toDigits 10 c, scale)
  let (ds, scale) := found.getD ([], 0)
  ⟨(ds.reverse.dropWhile (· == '0')).reverse, ds.length + scale⟩

/-! ## Writing -/

structure Style where
  tie : Tie
  /-- An integral number keeps a point and a zero. -/
  keepPoint : Bool
  /-- The decimal exponents of the numbers that are written without an exponent. -/
  positional : Int → Bool

def positionalChars (keepPoint : Bool) (d : Digits) : List Char :=
  let n := d.digits.length
  if d.point ≤ 0 then '0' :: '.' :: (List.replicate (-d.point).toNat '0' ++ d.digits)
  else if n ≤ d.point.toNat then
    d.digits ++ List.replicate (d.point.toNat - n) '0' ++ (if keepPoint then ['.', '0'] else [])
  else d.digits.take d.point.toNat ++ '.' :: d.digits.drop d.point.toNat

/-- One digit before the point, and an exponent that always has a sign. -/
def scientificChars (d : Digits) : List Char :=
  let exponent := d.point - 1
  let tail := d.digits.drop 1
  d.digits.take 1 ++ (if tail.isEmpty then [] else '.' :: tail) ++
    'e' :: (if exponent < 0 then '-' else '+') :: Nat.toDigits 10 exponent.natAbs

def render (style : Style) (negative : Bool) (units : Nat) : List Char :=
  let sign := if negative then ['-'] else []
  if units = 0 then sign ++ '0' :: (if style.keepPoint then ['.', '0'] else [])
  else
    let d := shortest style.tie units
    sign ++ if style.positional (d.point - 1) then positionalChars style.keepPoint d
      else scientificChars d

/-- Plain text never has an exponent, and an integral number has no point. -/
def plain : Style := ⟨.up, false, fun _ => true⟩

/-! ## Reading -/

def value (ds : List Char) : Nat := ds.foldl (fun n c => 10 * n + (c.toNat - '0'.toNat)) 0

/-- The exponent after the significand: nothing, or a letter, an optional sign and digits. -/
def readExponent? : List Char → Option Int
  | [] => some 0
  | e :: cs =>
    let digits (ds : List Char) : Option Nat :=
      if !ds.isEmpty && ds.all Char.isDigit then some (value ds) else none
    if e == 'e' || e == 'E' then
      match cs with
      | '-' :: ds => (digits ds).map fun n => -n
      | '+' :: ds => (digits ds).map fun n => n
      | ds => (digits ds).map fun n => n
    else none

def readUnsigned? (cs : List Char) : Option (Nat × Int) :=
  let whole := cs.takeWhile Char.isDigit
  let rest := cs.dropWhile Char.isDigit
  let (fraction, rest) := match rest with
    | '.' :: rest => (rest.takeWhile Char.isDigit, rest.dropWhile Char.isDigit)
    | rest => ([], rest)
  if whole.isEmpty && fraction.isEmpty then none
  else (readExponent? rest).map fun e => (value (whole ++ fraction), e - fraction.length)

end Decimal

namespace Binary64

inductive Fault
  | empty
  | invalid
  deriving DecidableEq, Repr

def Fault.message : Fault → String
  | .empty => "cannot parse float from empty string"
  | .invalid => "invalid float literal"

def readUnsigned? (negative : Bool) (cs : List Char) : Option Binary64 :=
  let word := String.ofList (cs.map Char.toLower)
  if word == "inf" || word == "infinity" then some (.infinite negative)
  else if word == "nan" then some .nan
  else (Decimal.readUnsigned? cs).map fun (n, e) => ofDecimal negative n e

/-- Reads an optional sign and a number; the nearest number of the format is taken. -/
def read (cs : List Char) : Except Fault Binary64 :=
  let found := match cs with
    | '-' :: cs => readUnsigned? true cs
    | '+' :: cs => readUnsigned? false cs
    | cs => readUnsigned? false cs
  match cs, found with
  | [], _ => .error .empty
  | _, some x => .ok x
  | _, none => .error .invalid

/-- The positional text; a number that is not finite is named. -/
def text : Binary64 → String
  | .nan => "NaN"
  | .infinite negative => if negative then "-inf" else "inf"
  | .finite negative units _ => .ofList (Decimal.render Decimal.plain negative units)

end Binary64

end RecordQuery
