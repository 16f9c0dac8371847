import RecordQuery.Calendar.DateTime
import RecordQuery.Proofs.Number.Digits

/-!
# Dates and moments read back

The text of a date or of a moment denotes it again. A moment is written without its nanoseconds, so
only one that has none is read back.

* `Date.readFront?_chars`, `Date.read?_chars` : the text of a date;
* `TimeOfDay.readParts?_chars` : the text of a time of day;
* `Zoned.read?_chars` : the text of a moment has no offset, so it is not taken for one in RFC 3339;
* `DateTime.read_chars` : the text of a moment.
-/

namespace RecordQuery

/-! ## Dates -/

theorem Calendar.daysIn_le (year : Int) (month : Nat) : daysIn year month ≤ 31 := by
  unfold daysIn
  split <;> first | decide | (split <;> decide)

theorem Calendar.month_le {year : Int} {month : Nat} (h : 0 < daysIn year month) : month ≤ 12 := by
  unfold daysIn at h
  split at h <;> omega

namespace Date

theorem ofParts?_eq_some (d : Date) : ofParts? d.year d.month d.day = some d := dif_pos d.valid

theorem natAbs_year_lt (d : Date) : d.year.natAbs < 10 ^ 4 := by
  obtain ⟨hlow, hhigh, -, -⟩ := d.valid
  omega

theorem month_lt (d : Date) : d.month < 10 ^ 2 := by
  obtain ⟨-, -, hday, hdays⟩ := d.valid
  have hmonth := Calendar.month_le (Nat.lt_of_lt_of_le hday hdays)
  omega

theorem day_lt (d : Date) : d.day < 10 ^ 2 := by
  obtain ⟨-, -, -, hdays⟩ := d.valid
  have hle := Calendar.daysIn_le d.year d.month
  omega

def monthDayChars (d : Date) : List Char :=
  '-' :: Integer.padded 2 d.month ++ '-' :: Integer.padded 2 d.day

theorem readInYear?_monthDayChars (d : Date) (rest : List Char) :
    readInYear? d.year (d.monthDayChars ++ rest) = some (d, rest) := by
  have hmonth := Calendar.digits?_padded (by decide) d.month_lt
  have hday := Calendar.digits?_padded (by decide) d.day_lt
  simp [readInYear?, monthDayChars, Calendar.expect?, hmonth, hday, ofParts?_eq_some]

theorem digits?_year (d : Date) (rest : List Char) :
    Calendar.digits? 4 (Integer.padded 4 d.year.natAbs ++ rest) = some (d.year.natAbs, rest) :=
  Calendar.digits?_padded (by decide) d.natAbs_year_lt rest

theorem chars_of_neg {d : Date} (h : d.year < 0) :
    d.chars = '-' :: (Integer.padded 4 d.year.natAbs ++ d.monthDayChars) := by
  simp [chars, monthDayChars, h]

theorem chars_of_nonneg {d : Date} (h : 0 ≤ d.year) :
    d.chars = Integer.padded 4 d.year.natAbs ++ d.monthDayChars := by
  simp [chars, monthDayChars, Int.not_lt.2 h]

theorem exists_cons_of_nonneg {d : Date} (h : 0 ≤ d.year) :
    ∃ c cs, d.chars = c :: cs ∧ c.isDigit := by
  rw [chars_of_nonneg h]
  cases hyear : Integer.padded 4 d.year.natAbs with
  | nil =>
    have hlen := Integer.length_padded (by decide) d.natAbs_year_lt
    rw [hyear] at hlen
    contradiction
  | cons c cs => exact ⟨c, _, rfl, Integer.isDigit_of_mem_padded (hyear ▸ List.mem_cons_self)⟩

/-- A text that begins with a digit begins with a year without a sign. -/
theorem readFront?_of_isDigit {c : Char} (hc : c.isDigit) (cs : List Char) :
    readFront? (c :: cs) = (Calendar.digits? 4 (c :: cs)).bind fun x => readInYear? x.1 x.2 := by
  unfold readFront?
  split
  · rename_i h
    cases h
    cases hc
  · rename_i h
    cases h
    cases hc
  · rfl

/-- **The text of a date is taken off the front of a text**, whatever comes after it. -/
theorem readFront?_chars (d : Date) (rest : List Char) :
    readFront? (d.chars ++ rest) = some (d, rest) := by
  rcases Int.lt_or_le d.year 0 with hneg | hnonneg
  · have hyear : -(d.year.natAbs : Int) = d.year := by omega
    rw [chars_of_neg hneg, List.cons_append, List.append_assoc, readFront?]
    simp only [digits?_year, Option.bind_eq_bind, Option.bind_some]
    rw [hyear, readInYear?_monthDayChars]
  · have hyear : (d.year.natAbs : Int) = d.year := by omega
    obtain ⟨c, cs, hcs, hc⟩ := exists_cons_of_nonneg hnonneg
    rw [hcs, List.cons_append, readFront?_of_isDigit hc, ← List.cons_append, ← hcs,
      chars_of_nonneg hnonneg, List.append_assoc, digits?_year, Option.bind_some]
    dsimp only
    rw [hyear, readInYear?_monthDayChars]

theorem read?_chars (d : Date) : read? d.chars = some d := by
  have hfront := d.readFront?_chars []
  rw [List.append_nil] at hfront
  rw [read?, hfront]

end Date

/-! ## Moments -/

namespace TimeOfDay

theorem ofParts?_eq_some (t : TimeOfDay) :
    ofParts? t.hour t.minute t.second t.nanosecond = some t := dif_pos t.valid

/-- **The text of a time of day is taken off the front of a text.** -/
theorem readParts?_chars (t : TimeOfDay) (rest : List Char) :
    readParts? (t.chars ++ rest) = some ((t.hour, t.minute, t.second), rest) := by
  obtain ⟨hhour, hminute, hsecond, -⟩ := t.valid
  have hhour' := Calendar.digits?_padded (w := 2) (n := t.hour) (by decide) (by omega)
  have hminute' := Calendar.digits?_padded (w := 2) (n := t.minute) (by decide) (by omega)
  have hsecond' := Calendar.digits?_padded (w := 2) (n := t.second) (by decide) (by omega)
  simp [readParts?, chars, Calendar.expect?, hhour', hminute', hsecond']

end TimeOfDay

/-- A moment is written without an offset. -/
theorem Zoned.read?_chars (t : DateTime) : read? t.chars = none := by
  unfold DateTime.chars read?
  rcases Int.lt_or_le t.date.year 0 with hneg | hnonneg
  · have hsign : Calendar.digits? 4 (t.date.chars ++ ' ' :: t.time.chars) = none := by
      rw [Date.chars_of_neg hneg]
      simp [Calendar.digits?]
    rw [hsign]
    rfl
  · have hyear : (t.date.year.natAbs : Int) = t.date.year := by omega
    have htime := t.time.readParts?_chars []
    rw [List.append_nil] at htime
    have hseparator : (guard (' '.toNat < 128) : Option Unit) = some () := rfl
    rw [Date.chars_of_nonneg hnonneg, List.append_assoc, Date.digits?_year]
    dsimp only [Option.bind_eq_bind, Option.bind_some]
    rw [hyear, Date.readInYear?_monthDayChars, Option.bind_some]
    dsimp only
    rw [hseparator, Option.bind_some, htime]
    rfl

namespace DateTime

/-- **The text of a moment is read as the moment, if it has no nanoseconds.** -/
theorem read_chars {t : DateTime} (h : t.time.nanosecond = 0) : read t.chars = .ok t := by
  have htime := t.time.readParts?_chars []
  rw [List.append_nil] at htime
  have hparts : TimeOfDay.ofParts? t.time.hour t.time.minute t.time.second 0 = some t.time := by
    rw [← h, TimeOfDay.ofParts?_eq_some]
  have hfront := t.date.readFront?_chars (' ' :: t.time.chars)
  have hblank : Calendar.expect? ' ' (' ' :: t.time.chars) = some t.time.chars := rfl
  have hend : (guard ([] : List Char).isEmpty : Option Unit) = some () := rfl
  have hlocal : readLocal? ' ' t.chars = some t := by
    unfold readLocal? chars
    rw [hfront]
    dsimp only [Option.bind_eq_bind, Option.bind_some]
    rw [hblank, Option.bind_some, htime]
    dsimp only [Option.bind_some]
    rw [hend, Option.bind_some, hparts]
    rfl
  have hseparator : readLocal? 'T' t.chars = none := by
    unfold readLocal? chars
    rw [hfront]
    rfl
  rw [read, Zoned.read?_chars]
  simp [readUnzoned, hseparator, hlocal]

end DateTime

end RecordQuery
