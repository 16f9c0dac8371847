import Mathlib.Algebra.Group.Nat.Defs
import RecordQuery.Calendar.Date

/-!
# Numbers written in digits

What is written in decimal digits is read back.

* `Integer.readDigits_eq_ok` : digits are read as the number that they denote, up to the bound;
* `Integer.read_chars` : the text of an integer of 64 bits is read as the integer;
* `Integer.length_padded`, `Calendar.digits?_padded` : a number below a power of ten is written in as
  many digits as the exponent says, and taken off the front of a text again.
-/

namespace RecordQuery

namespace Integer

theorem isDigit_of_mem_toDigits {n : Nat} {c : Char} (h : c ∈ Nat.toDigits 10 n) : c.isDigit :=
  Nat.isDigit_of_mem_toDigits (by decide) (by decide) h

/-! ## Integers of 64 bits -/

theorem le_ofDigitChars (cs : List Char) (acc : Nat) : acc ≤ Nat.ofDigitChars 10 cs acc := by
  have hpow : 0 < 10 ^ cs.length := Nat.pow_pos (by decide)
  rw [Nat.ofDigitChars_eq_ofDigitChars_zero]
  exact Nat.le_add_right_of_le (Nat.le_mul_of_pos_left acc hpow)

/-- Digits are read as the number that they denote after those of `acc`, if it is within the bound. -/
theorem readDigits_eq_ok {bound acc : Nat} {beyond : Fault} {cs : List Char}
    (hcs : ∀ c ∈ cs, c.isDigit) (h : Nat.ofDigitChars 10 cs acc ≤ bound) :
    readDigits bound beyond acc cs = .ok (Nat.ofDigitChars 10 cs acc) := by
  induction cs generalizing acc with
  | nil => rfl
  | cons c cs ih =>
    obtain ⟨hc, hcs⟩ := List.forall_mem_cons.1 hcs
    rw [Nat.ofDigitChars_cons] at h ⊢
    have hdigit : digit? c = some (c.toNat - '0'.toNat) := if_pos hc
    rw [readDigits, hdigit]
    dsimp only
    rw [if_pos (Nat.le_trans (le_ofDigitChars cs _) h), ih hcs h]

theorem readMagnitude_toDigits {bound n : Nat} {beyond : Fault} (h : n ≤ bound) :
    readMagnitude bound beyond (Nat.toDigits 10 n) = .ok n := by
  have hread : readDigits bound beyond 0 (Nat.toDigits 10 n) = .ok n := by
    rw [readDigits_eq_ok fun c hc => isDigit_of_mem_toDigits hc]
    · rw [Nat.ofDigitChars_ten_toDigits]
    · rwa [Nat.ofDigitChars_ten_toDigits]
  cases hcs : Nat.toDigits 10 n with
  | nil => exact absurd hcs Nat.toDigits_ne_nil
  | cons c cs => rw [← hread, hcs, readMagnitude]; simp

/-- A text that begins with a digit has no sign. -/
theorem read_toDigits {n : Nat} (h : n < limit) : read (Nat.toDigits 10 n) = .ok (.ofInt n) := by
  have hmagnitude : readMagnitude (limit - 1) .tooLarge (Nat.toDigits 10 n) = .ok n :=
    readMagnitude_toDigits (Nat.le_sub_one_of_lt h)
  cases hcs : Nat.toDigits 10 n with
  | nil => exact absurd hcs Nat.toDigits_ne_nil
  | cons c cs =>
    have hc : c.isDigit := isDigit_of_mem_toDigits (hcs ▸ List.mem_cons_self)
    rw [hcs] at hmagnitude
    unfold read
    split
    · contradiction
    · rename_i h
      cases h
      cases hc
    · rename_i h
      cases h
      cases hc
    · rw [hmagnitude]
      rfl

/-- **The text of an integer of 64 bits is read as the integer.** -/
theorem read_chars (n : Int64) : read (chars n.toInt) = .ok n := by
  have hlt := n.toInt_lt
  have hle := n.le_toInt
  cases hn : n.toInt with
  | ofNat m =>
    rw [hn, Int.ofNat_eq_natCast] at hlt
    rw [chars, read_toDigits (by unfold limit; omega), ← Int.ofNat_eq_natCast, ← hn,
      Int64.ofInt_toInt]
  | negSucc m =>
    rw [hn] at hle
    rw [chars, read, readMagnitude_toDigits (by unfold limit; omega)]
    show Except.ok (Int64.ofInt (Int.negSucc m)) = _
    rw [← hn, Int64.ofInt_toInt]

/-! ## Numbers of a fixed width -/

variable {w n : Nat}

theorem length_padded (hw : 0 < w) (h : n < 10 ^ w) : (padded w n).length = w := by
  have hlen : (Nat.toDigits 10 n).length ≤ w := (Nat.length_toDigits_le_iff (by decide) hw).2 h
  rw [padded, List.length_append, List.length_replicate, Nat.sub_add_cancel hlen]

theorem isDigit_of_mem_padded {c : Char} (h : c ∈ padded w n) : c.isDigit := by
  rcases List.mem_append.1 h with h | h
  · rw [List.eq_of_mem_replicate h]
    rfl
  · exact isDigit_of_mem_toDigits h

theorem ofDigitChars_padded (w n : Nat) : Nat.ofDigitChars 10 (padded w n) 0 = n := by
  rw [padded, Nat.ofDigitChars_append, Nat.ofDigitChars_replicate_zero, Nat.mul_zero,
    Nat.ofDigitChars_ten_toDigits]

end Integer

/-- **A number of a fixed width is taken off the front of a text**, whatever comes after it. -/
theorem Calendar.digits?_padded {w n : Nat} (hw : 0 < w) (h : n < 10 ^ w) (rest : List Char) :
    digits? w (Integer.padded w n ++ rest) = some (n, rest) := by
  have hlen := Integer.length_padded hw h
  have hall : (Integer.padded w n).all Char.isDigit :=
    List.all_eq_true.2 fun c hc => Integer.isDigit_of_mem_padded hc
  have hvalue := Integer.ofDigitChars_padded w n
  rw [Nat.ofDigitChars_eq_foldl] at hvalue
  unfold digits?
  dsimp only
  rw [List.take_left' hlen, List.drop_left' hlen, if_pos ⟨hlen, hall⟩, hvalue]

end RecordQuery
