import RecordQuery.Number.Integer

/-!
# Calendar dates

The proleptic Gregorian calendar from year -9999 to year 9999.

* `Date`: a valid date; `Date.ofParts?` checks one;
* `Date.next?`, `Date.previous?`: the neighbouring days, where the calendar has them;
* `Date.chars`, `Date.read?`: the form `YYYY-MM-DD`, the year with an optional sign;
* `Calendar.digits?`, `Calendar.expect?`: the steps that readers of fixed forms are made of.
-/

namespace RecordQuery

namespace Calendar

/-! ## Fixed forms -/

/-- Takes exactly `n` digits off the front. -/
def digits? (n : Nat) (cs : List Char) : Option (Nat × List Char) :=
  let ds := cs.take n
  if ds.length = n ∧ ds.all Char.isDigit then
    some (ds.foldl (fun v c => 10 * v + (c.toNat - '0'.toNat)) 0, cs.drop n)
  else none

def expect? (c : Char) : List Char → Option (List Char)
  | d :: cs => if d = c then some cs else none
  | [] => none

/-! ## The calendar -/

def isLeap (year : Int) : Bool := year % 4 == 0 && (year % 100 != 0 || year % 400 == 0)

/-- The days of a month, zero for no month. -/
def daysIn (year : Int) : Nat → Nat
  | 1 | 3 | 5 | 7 | 8 | 10 | 12 => 31
  | 4 | 6 | 9 | 11 => 30
  | 2 => if isLeap year then 29 else 28
  | _ => 0

end Calendar

def Date.IsValid (year : Int) (month day : Nat) : Prop :=
  -9999 ≤ year ∧ year ≤ 9999 ∧ 1 ≤ day ∧ day ≤ Calendar.daysIn year month

instance (year : Int) (month day : Nat) : Decidable (Date.IsValid year month day) :=
  inferInstanceAs (Decidable (_ ∧ _ ∧ _ ∧ _))

/-- A day of the supported calendar. -/
structure Date where
  year : Int
  month : Nat
  day : Nat
  valid : Date.IsValid year month day
  deriving DecidableEq

namespace Date

def ofParts? (year : Int) (month day : Nat) : Option Date :=
  if h : IsValid year month day then some ⟨year, month, day, h⟩ else none

/-- The day after, unless it is beyond the calendar. -/
def next? (d : Date) : Option Date :=
  if d.day < Calendar.daysIn d.year d.month then ofParts? d.year d.month (d.day + 1)
  else if d.month < 12 then ofParts? d.year (d.month + 1) 1
  else ofParts? (d.year + 1) 1 1

def previous? (d : Date) : Option Date :=
  if 1 < d.day then ofParts? d.year d.month (d.day - 1)
  else if 1 < d.month then ofParts? d.year (d.month - 1) (Calendar.daysIn d.year (d.month - 1))
  else ofParts? (d.year - 1) 12 31

def endsMonth (d : Date) : Bool := d.day == Calendar.daysIn d.year d.month

def compare : Date → Date → Ordering :=
  compareLex (compareOn Date.year) (compareLex (compareOn Date.month) (compareOn Date.day))

/-! ## Text -/

/-- `YYYY-MM-DD`, after `-` if the year is negative. -/
def chars (d : Date) : List Char :=
  (if d.year < 0 then ['-'] else []) ++ Integer.padded 4 d.year.natAbs ++ '-' ::
    Integer.padded 2 d.month ++ '-' :: Integer.padded 2 d.day

/-- Takes `-MM-DD` off the front and completes it to a date of `year`. -/
def readInYear? (year : Int) (cs : List Char) : Option (Date × List Char) := do
  let cs ← Calendar.expect? '-' cs
  let (month, cs) ← Calendar.digits? 2 cs
  let cs ← Calendar.expect? '-' cs
  let (day, cs) ← Calendar.digits? 2 cs
  let date ← ofParts? year month day
  return (date, cs)

/-- Takes a date off the front; its year may have a sign. -/
def readFront? : List Char → Option (Date × List Char)
  | '-' :: cs => do
    let (year, cs) ← Calendar.digits? 4 cs
    readInYear? (-year) cs
  | '+' :: cs => do
    let (year, cs) ← Calendar.digits? 4 cs
    readInYear? year cs
  | cs => do
    let (year, cs) ← Calendar.digits? 4 cs
    readInYear? year cs

def read? (cs : List Char) : Option Date :=
  match readFront? cs with
  | some (date, []) => some date
  | _ => none

end Date

end RecordQuery
