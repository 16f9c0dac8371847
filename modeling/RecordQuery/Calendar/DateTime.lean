import RecordQuery.Calendar.Date

/-!
# Dates with a time of day

* `TimeOfDay`, `DateTime`: a moment without an offset, to the nanosecond;
* `Zoned`: a moment with its offset from UTC, as RFC 3339 writes it; `Zoned.toUtc?` moves it to UTC;
* `DateTime.read`: RFC 3339, or a date with a time of day, or a date alone, which means midnight;
* `DateTime.chars`: `YYYY-MM-DD HH:MM:SS`, without the nanoseconds.

RFC 3339 admits second 60. It is kept as the last nanosecond of second 59, and only where a leap
second can be: at 23:59:59 UTC on the last day of a month.
-/

namespace RecordQuery

def TimeOfDay.IsValid (hour minute second nanosecond : Nat) : Prop :=
  hour < 24 ∧ minute < 60 ∧ second < 60 ∧ nanosecond < 1000000000

instance (hour minute second nanosecond : Nat) :
    Decidable (TimeOfDay.IsValid hour minute second nanosecond) :=
  inferInstanceAs (Decidable (_ ∧ _ ∧ _ ∧ _))

structure TimeOfDay where
  hour : Nat
  minute : Nat
  second : Nat
  nanosecond : Nat
  valid : TimeOfDay.IsValid hour minute second nanosecond
  deriving DecidableEq

namespace TimeOfDay

def midnight : TimeOfDay := ⟨0, 0, 0, 0, by decide⟩

def ofParts? (hour minute second nanosecond : Nat) : Option TimeOfDay :=
  if h : IsValid hour minute second nanosecond then some ⟨hour, minute, second, nanosecond, h⟩
  else none

def compare : TimeOfDay → TimeOfDay → Ordering :=
  compareLex (compareOn hour) (compareLex (compareOn minute)
    (compareLex (compareOn second) (compareOn nanosecond)))

/-- `HH:MM:SS`. -/
def chars (t : TimeOfDay) : List Char :=
  Integer.padded 2 t.hour ++ ':' :: Integer.padded 2 t.minute ++ ':' :: Integer.padded 2 t.second

def readParts? (cs : List Char) : Option ((Nat × Nat × Nat) × List Char) := do
  let (hour, cs) ← Calendar.digits? 2 cs
  let cs ← Calendar.expect? ':' cs
  let (minute, cs) ← Calendar.digits? 2 cs
  let cs ← Calendar.expect? ':' cs
  let (second, cs) ← Calendar.digits? 2 cs
  return ((hour, minute, second), cs)

end TimeOfDay

structure DateTime where
  date : Date
  time : TimeOfDay
  deriving DecidableEq

namespace DateTime

def compare : DateTime → DateTime → Ordering :=
  compareLex (fun a b => a.date.compare b.date) (fun a b => a.time.compare b.time)

/-- `YYYY-MM-DD HH:MM:SS`. -/
def chars (t : DateTime) : List Char := t.date.chars ++ ' ' :: t.time.chars

end DateTime

/-! ## Moments with an offset -/

/-- A local moment and the minutes by which local time is ahead of UTC. -/
structure Zoned where
  moment : DateTime
  offset : Int
  /-- The second was written as 60. -/
  leapSecond : Bool

namespace Zoned

/-- The nanoseconds that the digits after the point give; digits after the ninth do not count. -/
def fraction (ds : List Char) : Nat :=
  (ds ++ List.replicate 9 '0').take 9 |>.foldl (fun v c => 10 * v + (c.toNat - '0'.toNat)) 0

def readFraction? : List Char → Option (Nat × List Char)
  | '.' :: cs =>
    let ds := cs.takeWhile Char.isDigit
    if ds.isEmpty then none else some (fraction ds, cs.dropWhile Char.isDigit)
  | cs => some (0, cs)

/-- Reads `Z` or an offset of hours and minutes, as minutes. -/
def readOffset? : List Char → Option Int
  | ['Z'] | ['z'] => some 0
  | sign :: cs => do
    let (hours, cs) ← Calendar.digits? 2 cs
    let cs ← Calendar.expect? ':' cs
    let (minutes, cs) ← Calendar.digits? 2 cs
    let offset : Int := 60 * hours + minutes
    if cs.isEmpty ∧ hours ≤ 23 ∧ minutes ≤ 59 then
      if sign = '+' then some offset else if sign = '-' then some (-offset) else none
    else none
  | [] => none

/-- Reads the form of RFC 3339, in which any one ASCII character separates date and time. -/
def read? (cs : List Char) : Option Zoned := do
  let (year, cs) ← Calendar.digits? 4 cs
  let (date, cs) ← Date.readInYear? year cs
  let separator :: cs := cs | none
  guard (separator.toNat < 128)
  let ((hour, minute, second), cs) ← TimeOfDay.readParts? cs
  let (nanosecond, cs) ← readFraction? cs
  let offset ← readOffset? cs
  let leapSecond := second = 60
  let time ← if leapSecond then TimeOfDay.ofParts? hour minute 59 999999999
    else TimeOfDay.ofParts? hour minute second nanosecond
  return ⟨⟨date, time⟩, offset, leapSecond⟩

/-- The same instant in UTC, unless its date is beyond the calendar. -/
def toUtc? (z : Zoned) : Option DateTime := do
  let minutes := (60 * z.moment.time.hour + z.moment.time.minute : Int) - z.offset
  let date ← if minutes < 0 then z.moment.date.previous?
    else if 1440 ≤ minutes then z.moment.date.next?
    else some z.moment.date
  let ofDay := (minutes % 1440).toNat
  let time ← TimeOfDay.ofParts? (ofDay / 60) (ofDay % 60) z.moment.time.second
    z.moment.time.nanosecond
  return ⟨date, time⟩

end Zoned

/-! ## Reading -/

namespace DateTime

inductive Fault
  | unreadable
  /-- The text names an instant whose date in UTC is beyond the calendar. -/
  | beyondCalendar
  deriving DecidableEq, Repr

/-- A leap second can be at the last second of a month. -/
def canLeap (t : DateTime) : Bool :=
  t.time.hour == 23 && t.time.minute == 59 && t.time.second == 59 && t.date.endsMonth

def readLocal? (separator : Char) (cs : List Char) : Option DateTime := do
  let (date, cs) ← Date.readFront? cs
  let cs ← Calendar.expect? separator cs
  let ((hour, minute, second), cs) ← TimeOfDay.readParts? cs
  guard cs.isEmpty
  let time ← TimeOfDay.ofParts? hour minute second 0
  return ⟨date, time⟩

def readUnzoned (cs : List Char) : Except Fault DateTime :=
  match readLocal? 'T' cs <|> readLocal? ' ' cs <|> (Date.read? cs).map (⟨·, .midnight⟩) with
  | some t => .ok t
  | none => .error .unreadable

/-- Reads a moment; one with an offset is moved to UTC. -/
def read (cs : List Char) : Except Fault DateTime :=
  match Zoned.read? cs with
  | none => readUnzoned cs
  | some z =>
    match z.toUtc? with
    | some t => if z.leapSecond && !t.canLeap then readUnzoned cs else .ok t
    | none => if z.leapSecond then readUnzoned cs else .error .beyondCalendar

end DateTime

end RecordQuery
