import Mathlib.Tactic.IntervalCases
import RecordQuery.Proofs.Calendar.Order

/-!
# Moments in UTC

A moment that is written with an offset is moved to UTC, where it is the same instant. Only years from 0
are written with offsets, so it is only behind the last day of the calendar that there is no date for it.

* `Date.dayNumber_of_previous`, `Date.exists_next`, `Date.exists_previous` : the days around a date;
* `Zoned.instant`, `Zoned.IsBounded` : the instant of a moment with an offset, and what the form of RFC
  3339 admits (`Zoned.isBounded_of_read`);
* `Zoned.instant_of_toUtc`, `Zoned.toUtc?_eq_none_iff` : the same instant, or the end of the calendar;
* `DateTime.read_of_zoned` : what a text in the form of RFC 3339 is read as.
-/

namespace RecordQuery

/-! ## The days around a date -/

theorem Calendar.daysIn_pos (year : Int) {month : Nat} (hlow : 1 ≤ month) (hhigh : month ≤ 12) :
    1 ≤ daysIn year month := by
  by_cases hfebruary : month = 2
  · rw [hfebruary]
    show 1 ≤ if isLeap year = true then 29 else 28
    split <;> decide
  · interval_cases month <;> first | contradiction | exact Nat.le_of_ble_eq_true rfl

namespace Date
variable {d e : Date}

theorem exists_ofParts {year : Int} {month day : Nat} (h : IsValid year month day) :
    ∃ e, ofParts? year month day = some e := ⟨_, dif_pos h⟩

/-- **The day before has the number before.** -/
theorem dayNumber_of_previous (h : d.previous? = some e) : e.dayNumber = d.dayNumber - 1 := by
  have hmonth := d.month_bounds
  obtain ⟨-, -, hday, -⟩ := d.valid
  unfold previous? at h
  unfold dayNumber
  split at h
  · obtain ⟨hy, hm, hd⟩ := parts_of_ofParts? h
    rw [hy, hm, hd]
    omega
  split at h
  · obtain ⟨hy, hm, hd⟩ := parts_of_ofParts? h
    have hmonths : Calendar.daysBefore d.year (d.month - 1 + 1) =
        Calendar.daysBefore d.year (d.month - 1) + Calendar.daysIn d.year (d.month - 1) := rfl
    rw [show d.month - 1 + 1 = d.month by omega] at hmonths
    rw [hy, hm, hd]
    omega
  -- Before the first day of January all months of the year before are over.
  · obtain ⟨hy, hm, hd⟩ := parts_of_ofParts? h
    have hyear := Calendar.yearStart_succ (d.year - 1)
    have hdecember : Calendar.daysBefore (d.year - 1) 13 =
        Calendar.daysBefore (d.year - 1) 12 + 31 := rfl
    have hfirst : Calendar.daysBefore d.year d.month = 0 := by
      rw [show d.month = 1 by omega]
      rfl
    rw [Int.sub_add_cancel] at hyear
    rw [hy, hm, hd]
    omega

theorem exists_previous (h : -9999 < d.year) : ∃ e, d.previous? = some e := by
  have hmonth := d.month_bounds
  obtain ⟨hlow, hhigh, hday, hdays⟩ := d.valid
  unfold previous?
  split
  · exact exists_ofParts ⟨hlow, hhigh, by omega, by omega⟩
  split
  · exact exists_ofParts ⟨hlow, hhigh, Calendar.daysIn_pos d.year (by omega) (by omega), Nat.le_refl _⟩
  · exact exists_ofParts ⟨by omega, by omega, by decide, Nat.le_refl 31⟩

def last : Date := ⟨9999, 12, 31, by decide⟩

theorem dayNumber_le_last (d : Date) : d.dayNumber ≤ last.dayNumber := by
  have hmonth := d.month_bounds
  obtain ⟨-, hhigh, -, hdays⟩ := d.valid
  by_cases hyear : d.year = 9999
  · by_cases hdecember : d.month = 12
    · rw [hyear, hdecember] at hdays
      have hday : d.day ≤ 31 := hdays
      unfold dayNumber
      rw [hyear, hdecember]
      exact Int.add_le_add_left (Int.ofNat_le.2 hday) _
    · exact Int.le_of_lt (dayNumber_lt_of_month_lt hyear (show d.month < 12 by omega))
  · exact Int.le_of_lt (dayNumber_lt_of_year_lt (show d.year < 9999 by omega))

theorem exists_next (h : d.dayNumber < last.dayNumber) : ∃ e, d.next? = some e := by
  have hmonth := d.month_bounds
  obtain ⟨hlow, hhigh, hday, hdays⟩ := d.valid
  unfold next?
  split
  · exact exists_ofParts ⟨hlow, hhigh, by omega, by omega⟩
  split
  · exact exists_ofParts ⟨hlow, hhigh, by decide, Calendar.daysIn_pos d.year (by omega) (by omega)⟩
  · rename_i hend _
    refine exists_ofParts ⟨by omega, ?_, by decide, Calendar.daysIn_pos _ (by decide) (by decide)⟩
    -- In the last year this is the last day.
    by_contra hlater
    have hyear : d.year = 9999 := by omega
    have hdecember : d.month = 12 := by omega
    rw [hyear, hdecember] at hdays
    have hday : d.day = 31 := by
      rw [hyear, hdecember, Nat.not_lt] at hend
      exact Nat.le_antisymm hdays hend
    have hlast : d.dayNumber = last.dayNumber := by
      unfold dayNumber
      rw [hyear, hdecember, hday]
      rfl
    omega

theorem next?_eq_none_iff : d.next? = none ↔ d.dayNumber = last.dayNumber := by
  constructor
  · intro hnone
    by_contra hne
    have hle := d.dayNumber_le_last
    obtain ⟨e, he⟩ := exists_next (d := d) (by omega)
    cases hnone.symm.trans he
  · intro heq
    rw [dayNumber_inj.1 heq]
    rfl

end Date

/-! ## Instants -/

/-- The instant at which the last day of the calendar is over. -/
def Calendar.endInstant : Int := 86400000000000 * (Date.last.dayNumber + 1)

namespace Zoned
variable {z : Zoned} {t : DateTime} {cs : List Char}

def instant (z : Zoned) : Int := z.moment.instant - 60000000000 * z.offset

/-- The minutes in UTC since the midnight of the local date. -/
def utcMinutes (z : Zoned) : Int := 60 * z.moment.time.hour + z.moment.time.minute - z.offset

/-- The year has no sign, and the offset is less than a day. -/
structure IsBounded (z : Zoned) : Prop where
  year : 0 ≤ z.moment.date.year
  low : -1440 < z.offset
  high : z.offset < 1440

theorem IsBounded.utcMinutes (hz : z.IsBounded) : -1440 < z.utcMinutes ∧ z.utcMinutes < 2880 := by
  obtain ⟨-, hlow, hhigh⟩ := hz
  obtain ⟨hhour, hminute, -, -⟩ := z.moment.time.valid
  unfold Zoned.utcMinutes
  omega

theorem instant_eq (z : Zoned) : z.instant = 86400000000000 * z.moment.date.dayNumber +
    60000000000 * z.utcMinutes + 1000000000 * z.moment.time.second + z.moment.time.nanosecond := by
  unfold instant utcMinutes DateTime.instant TimeOfDay.elapsed
  omega

/-- The date in UTC, which is the local one or one next to it. -/
def utcDate? (z : Zoned) : Option Date :=
  if z.utcMinutes < 0 then z.moment.date.previous?
  else if 1440 ≤ z.utcMinutes then z.moment.date.next?
  else some z.moment.date

theorem dayNumber_utcDate {d : Date} (hz : z.IsBounded) (h : z.utcDate? = some d) :
    d.dayNumber = z.moment.date.dayNumber + z.utcMinutes / 1440 := by
  have hminutes := hz.utcMinutes
  unfold utcDate? at h
  split at h
  · have hday := Date.dayNumber_of_previous h
    omega
  split at h
  · have hday := Date.dayNumber_of_next h
    omega
  · cases h
    omega

theorem utcDate?_eq_none_iff (hz : z.IsBounded) :
    z.utcDate? = none ↔ 1440 ≤ z.utcMinutes ∧ z.moment.date.dayNumber = Date.last.dayNumber := by
  unfold utcDate?
  split
  · obtain ⟨d, hd⟩ := Date.exists_previous (d := z.moment.date) (by have := hz.year; omega)
    rw [hd]
    refine iff_of_false nofun fun h => ?_
    omega
  split
  · rename_i hlate
    rw [Date.next?_eq_none_iff]
    exact (and_iff_right hlate).symm
  · rename_i hearly
    exact iff_of_false nofun fun h => hearly h.1

theorem toUtc?_eq_bind (z : Zoned) : z.toUtc? = z.utcDate?.bind fun date =>
    (TimeOfDay.ofParts? ((z.utcMinutes % 1440).toNat / 60) ((z.utcMinutes % 1440).toNat % 60)
      z.moment.time.second z.moment.time.nanosecond).bind fun time => some ⟨date, time⟩ := by
  unfold toUtc? utcDate? utcMinutes
  dsimp only
  split
  · rfl
  · split <;> rfl

/-- Of the two parts in UTC the time of day always is one. -/
theorem toUtc?_eq (z : Zoned) : ∃ time : TimeOfDay, z.toUtc? = z.utcDate?.map (⟨·, time⟩) ∧
    (time.elapsed : Int) = 60000000000 * (z.utcMinutes % 1440) + 1000000000 * z.moment.time.second +
      z.moment.time.nanosecond := by
  obtain ⟨-, -, hsecond, hnanosecond⟩ := z.moment.time.valid
  let ofDay := (z.utcMinutes % 1440).toNat
  have hvalid : TimeOfDay.IsValid (ofDay / 60) (ofDay % 60) z.moment.time.second
      z.moment.time.nanosecond := ⟨by omega, by omega, hsecond, hnanosecond⟩
  refine ⟨⟨_, _, _, _, hvalid⟩, ?_, ?_⟩
  · have htime : TimeOfDay.ofParts? (ofDay / 60) (ofDay % 60) z.moment.time.second
        z.moment.time.nanosecond = some ⟨_, _, _, _, hvalid⟩ := dif_pos hvalid
    rw [toUtc?_eq_bind, htime]
    cases z.utcDate? <;> rfl
  · unfold TimeOfDay.elapsed
    dsimp only
    omega

/-- **Moved to UTC a moment is the same instant.** -/
theorem instant_of_toUtc (hz : z.IsBounded) (h : z.toUtc? = some t) : t.instant = z.instant := by
  obtain ⟨time, htoUtc, helapsed⟩ := z.toUtc?_eq
  rw [htoUtc] at h
  obtain ⟨d, hd, rfl⟩ := Option.map_eq_some_iff.1 h
  have hday := dayNumber_utcDate hz hd
  rw [instant_eq]
  unfold DateTime.instant
  dsimp only
  omega

/-- **A moment has no date in UTC where its instant is behind the last day of the calendar.** -/
theorem toUtc?_eq_none_iff (hz : z.IsBounded) : z.toUtc? = none ↔ Calendar.endInstant ≤ z.instant := by
  obtain ⟨time, htoUtc, -⟩ := z.toUtc?_eq
  have hminutes := hz.utcMinutes
  have hday := z.moment.date.dayNumber_le_last
  obtain ⟨-, -, hsecond, hnanosecond⟩ := z.moment.time.valid
  rw [htoUtc, Option.map_eq_none_iff, utcDate?_eq_none_iff hz, instant_eq]
  unfold Calendar.endInstant
  omega

end Zoned

/-! ## The form of RFC 3339 -/

theorem Date.readFront?_of_digits {cs rest : List Char} {year : Nat}
    (h : Calendar.digits? 4 cs = some (year, rest)) : readFront? cs = readInYear? year rest := by
  cases cs with
  | nil => cases h
  | cons c cs =>
    have hdigit : c.isDigit = true := by
      unfold Calendar.digits? at h
      dsimp only at h
      split at h
      · rename_i hdigits
        rw [List.take_succ_cons, List.all_cons, Bool.and_eq_true] at hdigits
        exact hdigits.2.1
      · cases h
    rw [readFront?_of_isDigit hdigit, h]
    rfl

theorem Date.year_of_readInYear {cs rest : List Char} {year : Int} {d : Date}
    (h : readInYear? year cs = some (d, rest)) : d.year = year := by
  unfold readInYear? at h
  simp only [Option.bind_eq_bind, Option.bind_eq_some_iff] at h
  obtain ⟨_, _, ⟨month, _⟩, _, _, _, ⟨day, _⟩, _, date, hdate, h⟩ := h
  cases h
  exact (parts_of_ofParts? hdate).1

namespace Zoned
variable {z : Zoned} {cs : List Char}

theorem readOffset_bounds {offset : Int} (h : readOffset? cs = some offset) :
    -1440 < offset ∧ offset < 1440 := by
  unfold readOffset? at h
  split at h
  · cases h
    decide
  · cases h
    decide
  · simp only [Option.bind_eq_bind, Option.bind_eq_some_iff] at h
    obtain ⟨⟨hours, _⟩, _, _, _, ⟨minutes, rest⟩, _, h⟩ := h
    dsimp only at h
    split at h
    · split at h
      · cases h
        omega
      · split at h
        · cases h
          omega
        · cases h
    · cases h
  · cases h

/-- The parts of a text in the form of RFC 3339: a date, a separator, a time of day and what comes after
it, which is not nothing, since there is an offset. -/
theorem exists_parts_of_read (h : read? cs = some z) : ∃ (year : Nat) (front : List Char)
    (separator : Char) (rest tail : List Char) (parts : Nat × Nat × Nat),
    Calendar.digits? 4 cs = some (year, front) ∧
      Date.readInYear? year front = some (z.moment.date, separator :: rest) ∧
      TimeOfDay.readParts? rest = some (parts, tail) ∧ tail ≠ [] ∧ -1440 < z.offset ∧ z.offset < 1440 := by
  unfold read? at h
  obtain ⟨⟨year, front⟩, hyear, h⟩ := Option.bind_eq_some_iff.1 h
  obtain ⟨⟨date, after⟩, hdate, h⟩ := Option.bind_eq_some_iff.1 h
  dsimp only at h hdate
  split at h
  · rename_i separator rest
    obtain ⟨-, -, h⟩ := Option.bind_eq_some_iff.1 h
    obtain ⟨⟨⟨hour, minute, second⟩, tail⟩, hparts, h⟩ := Option.bind_eq_some_iff.1 h
    dsimp only at h
    obtain ⟨⟨nanosecond, tail'⟩, hfraction, h⟩ := Option.bind_eq_some_iff.1 h
    dsimp only at h
    obtain ⟨offset, hoffset, h⟩ := Option.bind_eq_some_iff.1 h
    have hz : z.moment.date = date ∧ z.offset = offset := by
      split at h
      all_goals
        obtain ⟨time, -, h⟩ := Option.bind_eq_some_iff.1 h
        cases h
        exact ⟨rfl, rfl⟩
    have htail : tail ≠ [] := by
      rintro rfl
      cases hfraction
      cases hoffset
    rw [hz.1, hz.2]
    exact ⟨year, front, separator, rest, tail, _, hyear, hdate, hparts, htail, readOffset_bounds hoffset⟩
  · cases h

theorem isBounded_of_read (h : read? cs = some z) : z.IsBounded := by
  obtain ⟨year, front, separator, rest, tail, parts, -, hdate, -, -, hlow, hhigh⟩ :=
    exists_parts_of_read h
  have hyear := Date.year_of_readInYear hdate
  exact ⟨by omega, hlow, hhigh⟩

end Zoned

namespace DateTime
variable {z : Zoned} {cs : List Char}

/-- A text in the form of RFC 3339 has none of the forms without an offset. -/
theorem readUnzoned_of_zoned (h : Zoned.read? cs = some z) : readUnzoned cs = .error .unreadable := by
  obtain ⟨year, front, separator, rest, tail, parts, hyear, hdate, hparts, htail, -⟩ :=
    Zoned.exists_parts_of_read h
  have hfront : Date.readFront? cs = some (z.moment.date, separator :: rest) := by
    rw [Date.readFront?_of_digits hyear, hdate]
  have hlocal (c : Char) : readLocal? c cs = none := by
    unfold readLocal?
    rw [hfront]
    dsimp only [Option.bind_eq_bind, Option.bind_some]
    by_cases hc : separator = c
    · have hend : (guard tail.isEmpty : Option Unit) = none := by simp [htail, guard]
      rw [Calendar.expect?, if_pos hc, Option.bind_some, hparts]
      dsimp only [Option.bind_some]
      rw [hend]
      rfl
    · rw [Calendar.expect?, if_neg hc]
      rfl
  have hdateOnly : Date.read? cs = none := by
    rw [Date.read?, hfront]
  simp [readUnzoned, hlocal, hdateOnly]

/-- **A text in the form of RFC 3339 is read as the same instant in UTC**, if that is within the calendar.
Behind its end a text with a leap second is not readable, and any other one is beyond the calendar. A leap
second may also be where there cannot be one. -/
theorem read_of_zoned (h : Zoned.read? cs = some z) :
    (z.instant < Calendar.endInstant ∧ ∃ t, t.instant = z.instant ∧
      (read cs = .ok t ∨ z.leapSecond = true ∧ read cs = .error .unreadable)) ∨
    Calendar.endInstant ≤ z.instant ∧
      read cs = .error (if z.leapSecond then .unreadable else .beyondCalendar) := by
  have hz := Zoned.isBounded_of_read h
  have hunzoned := readUnzoned_of_zoned h
  unfold read
  rw [h]
  dsimp only
  cases hutc : z.toUtc? with
  | some t =>
    have hwithin : z.instant < Calendar.endInstant := by
      rw [← Int.not_le, ← Zoned.toUtc?_eq_none_iff hz, hutc]
      nofun
    refine .inl ⟨hwithin, t, Zoned.instant_of_toUtc hz hutc, ?_⟩
    dsimp only
    split
    · rename_i hleap
      rw [Bool.and_eq_true] at hleap
      exact .inr ⟨hleap.1, hunzoned⟩
    · exact .inl rfl
  | none =>
    refine .inr ⟨(Zoned.toUtc?_eq_none_iff hz).1 hutc, ?_⟩
    dsimp only
    split
    · exact hunzoned
    · rfl

theorem readUnzoned_ne_beyondCalendar (cs : List Char) : readUnzoned cs ≠ .error .beyondCalendar := by
  unfold readUnzoned
  split <;> nofun

/-- **Reading meets the end of the calendar** in the form of RFC 3339 only, at an instant that is behind
the last day in UTC. -/
theorem read_eq_beyondCalendar_iff : read cs = .error .beyondCalendar ↔
    ∃ z, Zoned.read? cs = some z ∧ z.leapSecond = false ∧ Calendar.endInstant ≤ z.instant := by
  constructor
  · intro hread
    cases h : Zoned.read? cs with
    | none =>
      rw [read, h] at hread
      exact absurd hread (readUnzoned_ne_beyondCalendar cs)
    | some z =>
      rcases read_of_zoned h with ⟨-, t, -, ht | ⟨-, ht⟩⟩ | ⟨hend, herror⟩
      · cases hread.symm.trans ht
      · cases hread.symm.trans ht
      · refine ⟨z, rfl, ?_, hend⟩
        cases hleap : z.leapSecond with
        | false => rfl
        | true =>
          rw [hleap] at herror
          cases hread.symm.trans herror
  · rintro ⟨z, h, hleap, hend⟩
    rcases read_of_zoned h with ⟨hwithin, -⟩ | ⟨-, herror⟩
    · omega
    · rw [herror, hleap]
      rfl

end DateTime

end RecordQuery
