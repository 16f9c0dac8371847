import Mathlib.Order.Defs.LinearOrder
import RecordQuery.Proofs.Calendar.Reading

/-!
# Days and instants as numbers

Dates are compared part by part. That order is the one of the days of the calendar, and the order of
moments is the one of time.

* `Calendar.yearStart`, `Calendar.daysBefore` : the days before a year, and before a month of it;
* `Date.dayNumber` : the days of the calendar in a row (`dayNumber_of_next`);
* `Date.compare_eq`, `Date.dayNumber_inj` : dates are in the order of their days;
* `TimeOfDay.elapsed`, `DateTime.instant` : nanoseconds since midnight, and since one fixed midnight;
* `DateTime.compare_eq`, `DateTime.instant_inj` : moments are in the order of their instants.
-/

namespace RecordQuery

/-! ## Orders given by numbers -/

section Compare
variable {o o' : Ordering} {x y : Int}

theorem eq_compare (hlt : o = .lt → x < y) (hgt : o = .gt → y < x) (heq : o = .eq → x = y) :
    o = Ord.compare x y := by
  cases o with
  | lt => exact (Int.compare_eq_lt.2 (hlt rfl)).symm
  | gt => exact (Int.compare_eq_gt.2 (hgt rfl)).symm
  | eq => exact (Int.compare_eq_eq.2 (heq rfl)).symm

/-- Where the first parts decide they decide about the numbers, and otherwise the rest does. -/
theorem then_eq_compare (hlt : o = .lt → x < y) (hgt : o = .gt → y < x)
    (heq : o = .eq → o' = Ord.compare x y) : o.then o' = Ord.compare x y := by
  cases o with
  | lt => exact (Int.compare_eq_lt.2 (hlt rfl)).symm
  | gt => exact (Int.compare_eq_gt.2 (hgt rfl)).symm
  | eq => exact heq rfl

end Compare

/-! ## Days -/

namespace Calendar

/-- The days from the first day of the year 1 to the first day of the year. -/
def yearStart (year : Int) : Int :=
  365 * (year - 1) + (year - 1) / 4 - (year - 1) / 100 + (year - 1) / 400

def daysBefore (year : Int) : Nat → Nat
  | 0 => 0
  | month + 1 => daysBefore year month + daysIn year month

theorem daysBefore_add_daysIn_le (year : Int) {m n : Nat} (h : m < n) :
    daysBefore year m + daysIn year m ≤ daysBefore year n := by
  induction n with
  | zero => omega
  | succ n ih =>
    rw [daysBefore]
    by_cases hm : m = n
    · subst hm
      exact Nat.le_refl _
    · have hn := ih (by omega)
      omega

theorem daysBefore_thirteen (year : Int) :
    daysBefore year 13 = if isLeap year then 366 else 365 := by
  simp only [daysBefore, daysIn]
  split <;> rfl

/-- A year begins when the months of the year before it are over. -/
theorem yearStart_succ (year : Int) : yearStart (year + 1) = yearStart year + daysBefore year 13 := by
  rw [daysBefore_thirteen]
  unfold yearStart isLeap
  split <;> rename_i h <;> simp at h <;> omega

theorem yearStart_mono {a b : Int} (h : a ≤ b) : yearStart a ≤ yearStart b := by
  unfold yearStart
  omega

end Calendar

namespace Date

/-- The number of the day; the first day of the year 1 has the number 1. -/
def dayNumber (d : Date) : Int :=
  Calendar.yearStart d.year + Calendar.daysBefore d.year d.month + d.day

theorem month_bounds (d : Date) : 1 ≤ d.month ∧ d.month ≤ 12 := by
  obtain ⟨-, -, hday, hdays⟩ := d.valid
  constructor
  · by_contra hmonth
    rw [show d.month = 0 by omega] at hdays
    simp only [Calendar.daysIn] at hdays
    omega
  · exact Calendar.month_le (Nat.lt_of_lt_of_le hday hdays)

theorem parts_of_ofParts? {year : Int} {month day : Nat} {d : Date}
    (h : ofParts? year month day = some d) : d.year = year ∧ d.month = month ∧ d.day = day := by
  unfold ofParts? at h
  split at h
  · cases h
    exact ⟨rfl, rfl, rfl⟩
  · cases h

/-- **The day after has the next number.** -/
theorem dayNumber_of_next {d e : Date} (h : d.next? = some e) : e.dayNumber = d.dayNumber + 1 := by
  obtain ⟨-, -, -, hdays⟩ := d.valid
  have hmonth := d.month_bounds
  have hmonths : Calendar.daysBefore d.year (d.month + 1) =
      Calendar.daysBefore d.year d.month + Calendar.daysIn d.year d.month := rfl
  unfold next? at h
  unfold dayNumber
  split at h
  · obtain ⟨hy, hm, hd⟩ := parts_of_ofParts? h
    rw [hy, hm, hd]
    omega
  split at h
  · obtain ⟨hy, hm, hd⟩ := parts_of_ofParts? h
    rw [hy, hm, hd]
    omega
  -- After the last day of December the months of the year are over.
  · obtain ⟨hy, hm, hd⟩ := parts_of_ofParts? h
    have hyear := Calendar.yearStart_succ d.year
    have hfirst : Calendar.daysBefore (d.year + 1) 1 = 0 := rfl
    rw [show d.month + 1 = 13 by omega] at hmonths
    rw [hy, hm, hd]
    omega

theorem dayNumber_lt_of_year_lt {a b : Date} (h : a.year < b.year) : a.dayNumber < b.dayNumber := by
  obtain ⟨-, -, -, hdays⟩ := a.valid
  obtain ⟨-, -, hday, -⟩ := b.valid
  have hyear := Calendar.yearStart_succ a.year
  have hyears := Calendar.yearStart_mono (show a.year + 1 ≤ b.year by omega)
  have hmonth := a.month_bounds
  have hmonths := Calendar.daysBefore_add_daysIn_le a.year (show a.month < 13 by omega)
  unfold dayNumber
  omega

theorem dayNumber_lt_of_month_lt {a b : Date} (hyear : a.year = b.year) (h : a.month < b.month) :
    a.dayNumber < b.dayNumber := by
  obtain ⟨-, -, -, hdays⟩ := a.valid
  obtain ⟨-, -, hday, -⟩ := b.valid
  have hmonths := Calendar.daysBefore_add_daysIn_le a.year h
  unfold dayNumber
  rw [← hyear]
  omega

/-- **Dates are in the order of their days.** -/
theorem compare_eq (a b : Date) : a.compare b = Ord.compare a.dayNumber b.dayNumber := by
  show (Ord.compare a.year b.year).then
    ((Ord.compare a.month b.month).then (Ord.compare a.day b.day)) = _
  refine then_eq_compare (fun h => ?_) (fun h => ?_) fun hyear => ?_
  · exact dayNumber_lt_of_year_lt (Int.compare_eq_lt.1 h)
  · exact dayNumber_lt_of_year_lt (Int.compare_eq_gt.1 h)
  rw [Int.compare_eq_eq] at hyear
  refine then_eq_compare (fun h => ?_) (fun h => ?_) fun hmonth => ?_
  · exact dayNumber_lt_of_month_lt hyear (Nat.compare_eq_lt.1 h)
  · exact dayNumber_lt_of_month_lt hyear.symm (Nat.compare_eq_gt.1 h)
  rw [Nat.compare_eq_eq] at hmonth
  unfold dayNumber
  rw [hyear, hmonth]
  refine eq_compare (fun h => ?_) (fun h => ?_) fun h => ?_
  · rw [Nat.compare_eq_lt] at h
    omega
  · rw [Nat.compare_eq_gt] at h
    omega
  · rw [Nat.compare_eq_eq] at h
    omega

theorem dayNumber_inj {a b : Date} : a.dayNumber = b.dayNumber ↔ a = b := by
  constructor
  · intro h
    have heq : a.compare b = .eq := by rw [compare_eq, h, Int.compare_eq_eq]
    change (Ord.compare a.year b.year).then
      ((Ord.compare a.month b.month).then (Ord.compare a.day b.day)) = .eq at heq
    simp only [Ordering.then_eq_eq, Int.compare_eq_eq, Nat.compare_eq_eq] at heq
    obtain ⟨hyear, hmonth, hday⟩ := heq
    cases a
    cases b
    subst hyear hmonth hday
    rfl
  · intro h
    rw [h]

end Date

/-! ## Instants -/

namespace TimeOfDay

def elapsed (t : TimeOfDay) : Nat :=
  1000000000 * (60 * (60 * t.hour + t.minute) + t.second) + t.nanosecond

theorem elapsed_lt (t : TimeOfDay) : t.elapsed < 86400000000000 := by
  obtain ⟨hhour, hminute, hsecond, hnanosecond⟩ := t.valid
  unfold elapsed
  omega

theorem compare_eq (a b : TimeOfDay) : a.compare b = Ord.compare (a.elapsed : Int) b.elapsed := by
  show (Ord.compare a.hour b.hour).then ((Ord.compare a.minute b.minute).then
    ((Ord.compare a.second b.second).then (Ord.compare a.nanosecond b.nanosecond))) = _
  -- The bounds of the smaller parts keep them from making up for a larger one.
  obtain ⟨-, hminute, hsecond, hnanosecond⟩ := a.valid
  obtain ⟨-, hminute', hsecond', hnanosecond'⟩ := b.valid
  unfold elapsed
  refine then_eq_compare (fun h => ?_) (fun h => ?_) fun hhour => then_eq_compare (fun h => ?_)
    (fun h => ?_) fun hminutes => then_eq_compare (fun h => ?_) (fun h => ?_) fun hseconds =>
      eq_compare (fun h => ?_) (fun h => ?_) fun h => ?_
  all_goals
    simp only [Nat.compare_eq_lt, Nat.compare_eq_gt, Nat.compare_eq_eq] at *
    omega

theorem elapsed_inj {a b : TimeOfDay} : a.elapsed = b.elapsed ↔ a = b := by
  constructor
  · intro h
    obtain ⟨-, hminute, hsecond, hnanosecond⟩ := a.valid
    obtain ⟨-, hminute', hsecond', hnanosecond'⟩ := b.valid
    unfold elapsed at h
    have hhours : a.hour = b.hour := by omega
    have hminutes : a.minute = b.minute := by omega
    have hseconds : a.second = b.second := by omega
    have hnanoseconds : a.nanosecond = b.nanosecond := by omega
    cases a
    cases b
    subst hhours hminutes hseconds hnanoseconds
    rfl
  · intro h
    rw [h]

end TimeOfDay

namespace DateTime

/-- The nanoseconds since the midnight before the first day of the year 1, and one day. -/
def instant (t : DateTime) : Int := 86400000000000 * t.date.dayNumber + t.time.elapsed

/-- **Moments are in the order of their instants.** -/
theorem compare_eq (a b : DateTime) : a.compare b = Ord.compare a.instant b.instant := by
  show (a.date.compare b.date).then (a.time.compare b.time) = _
  have ha := a.time.elapsed_lt
  have hb := b.time.elapsed_lt
  rw [Date.compare_eq, TimeOfDay.compare_eq]
  unfold instant
  refine then_eq_compare (fun h => ?_) (fun h => ?_) fun hday => eq_compare (fun h => ?_)
    (fun h => ?_) fun h => ?_
  all_goals
    simp only [Int.compare_eq_lt, Int.compare_eq_gt, Int.compare_eq_eq] at *
    omega

theorem instant_inj {a b : DateTime} : a.instant = b.instant ↔ a = b := by
  constructor
  · intro h
    have ha := a.time.elapsed_lt
    have hb := b.time.elapsed_lt
    unfold instant at h
    have hdate : a.date = b.date := Date.dayNumber_inj.1 (by omega)
    have htime : a.time = b.time := TimeOfDay.elapsed_inj.1 (by omega)
    cases a
    cases b
    subst hdate htime
    rfl
  · intro h
    rw [h]

end DateTime

end RecordQuery
