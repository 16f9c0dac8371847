/-!
# Integers of 64 bits as text

* `Integer.read`: an optional sign and ASCII digits, with the causes of refusal in `Integer.Fault`;
* `Integer.chars`, `Integer.text`: the decimal digits of an integer, after `-` if it is negative;
* `Integer.padded`: the digits of a natural number, with zeros in front up to a width.

A digit is examined before the magnitude it would give, and the first offence from the left counts.
-/

namespace RecordQuery.Integer

/-- The magnitude of the least integer of 64 bits; the greatest is one less. -/
def limit : Nat := 9223372036854775808

inductive Fault
  | empty
  | invalidDigit
  | tooLarge
  | tooSmall
  deriving DecidableEq, Repr

def Fault.message : Fault → String
  | .empty => "cannot parse integer from empty string"
  | .invalidDigit => "invalid digit found in string"
  | .tooLarge => "number too large to fit in target type"
  | .tooSmall => "number too small to fit in target type"

def digit? (c : Char) : Option Nat := if c.isDigit then some (c.toNat - '0'.toNat) else none

/-- Reads digits after those of `acc`; a magnitude above `bound` is refused as `beyond`. -/
def readDigits (bound : Nat) (beyond : Fault) (acc : Nat) : List Char → Except Fault Nat
  | [] => .ok acc
  | c :: cs =>
    match digit? c with
    | none => .error .invalidDigit
    | some d =>
      if 10 * acc + d ≤ bound then readDigits bound beyond (10 * acc + d) cs else .error beyond

def readMagnitude (bound : Nat) (beyond : Fault) : List Char → Except Fault Nat
  | [] => .error .invalidDigit
  | cs => readDigits bound beyond 0 cs

def read : List Char → Except Fault Int64
  | [] => .error .empty
  | '-' :: cs => (readMagnitude limit .tooSmall cs).map fun n => .ofInt (-n)
  | '+' :: cs => (readMagnitude (limit - 1) .tooLarge cs).map fun n => .ofInt n
  | cs => (readMagnitude (limit - 1) .tooLarge cs).map fun n => .ofInt n

def read? (cs : List Char) : Option Int64 := (read cs).toOption

/-- The decimal digits, after `-` if the integer is negative. -/
def chars : Int → List Char
  | .ofNat n => Nat.toDigits 10 n
  | .negSucc n => '-' :: Nat.toDigits 10 (n + 1)

def text (n : Int64) : String := .ofList (chars n.toInt)

/-- The digits of `n`, with zeros in front up to `width` characters. -/
def padded (width n : Nat) : List Char :=
  let ds := Nat.toDigits 10 n
  List.replicate (width - ds.length) '0' ++ ds

end RecordQuery.Integer
