import Mathlib.Algebra.Group.Nat.Defs
import Mathlib.Tactic.SplitIfs
import RecordQuery.Number.Binary64

/-!
# Rounding to the format

Rounding keeps the order of numbers, and leaves those alone that the format holds. Two integers that
differ may round to one number, but they are never put in the wrong order.

* `nearest_mono`, `roundUnits_mono` : rounding keeps the order;
* `roundUnits_of_representable` : a number of the format is its own rounding;
* `roundedUnits`, `rank_ofInt` : the place of a rounded integer among the numbers (`roundedUnits_mono`);
* `IsInt` : the number is the integer;
* `compare_ofInt` : how a rounded integer compares with a number that is an integer;
* `isInt_ofInt_of_le` : integers of up to 53 bits are not rounded.
-/

namespace RecordQuery.Binary64

/-! ## The nearest natural number -/

theorem div_le_nearest (num den : Nat) : num / den ≤ nearest num den := by
  dsimp only [nearest]
  split_ifs <;> omega

theorem nearest_mono {a b den : Nat} (h : a ≤ b) : nearest a den ≤ nearest b den := by
  have hq : a / den ≤ b / den := Nat.div_le_div_right h
  rcases Nat.eq_or_lt_of_le hq with heq | hlt
  · -- Between the same two neighbours the larger remainder is rounded up if the smaller one is.
    have ha := Nat.div_add_mod a den
    have hb := Nat.div_add_mod b den
    have hr : a % den ≤ b % den := by
      rw [heq] at ha
      omega
    dsimp only [nearest]
    rw [heq]
    split_ifs <;> omega
  · calc nearest a den ≤ a / den + 1 := nearest_le a den
      _ ≤ b / den := hlt
      _ ≤ nearest b den := div_le_nearest b den

theorem nearest_mul {den : Nat} (hden : 0 < den) (k : Nat) : nearest (k * den) den = k := by
  dsimp only [nearest]
  rw [Nat.mul_div_cancel k hden, Nat.mul_mod_left, Nat.mul_zero, if_pos hden]

theorem nearest_le_of_le {num den k : Nat} (hden : 0 < den) (h : num ≤ k * den) : nearest num den ≤ k := by
  have hle : nearest num den ≤ nearest (k * den) den := nearest_mono h
  rwa [nearest_mul hden] at hle

theorem le_nearest_of_le {num den k : Nat} (hden : 0 < den) (h : k * den ≤ num) : k ≤ nearest num den := by
  have hle : nearest (k * den) den ≤ nearest num den := nearest_mono h
  rwa [nearest_mul hden] at hle

/-! ## The nearest multiple of 53 bits -/

theorem log2_mono {a b : Nat} (h : a ≤ b) : a.log2 ≤ b.log2 := by
  by_cases ha : a = 0
  · simp [ha]
  · have hb : b ≠ 0 := by omega
    rw [Nat.le_log2 hb]
    exact Nat.le_trans (Nat.log2_self_le ha) h

theorem spareBits_mono {a b : Nat} (h : a ≤ b) : spareBits a ≤ spareBits b := by
  have hlog := log2_mono h
  unfold spareBits
  omega

/-- Without its spare bits a number has exactly 53 bits, if there are any to spare. -/
theorem two_pow_le_of_spareBits {n : Nat} (h : 0 < spareBits n) : 2 ^ (52 + spareBits n) ≤ n := by
  have hn : n ≠ 0 := by
    rintro rfl
    exact absurd h (by decide)
  have hlog : 52 + spareBits n = n.log2 := by
    unfold spareBits at h ⊢
    omega
  rw [hlog]
  exact Nat.log2_self_le hn

theorem roundUnits_eq (num den : Nat) : roundUnits num den =
    nearest num (den * 2 ^ spareBits (num / den)) * 2 ^ spareBits (num / den) := rfl

/-- With more bits to spare the multiples are the larger ones. -/
theorem roundUnits_le_two_pow {num den : Nat} (hden : 0 < den) :
    roundUnits num den ≤ 2 ^ (53 + spareBits (num / den)) := by
  have hpos : 0 < den * 2 ^ spareBits (num / den) := Nat.mul_pos hden (Nat.two_pow_pos _)
  have hlt : num / (den * 2 ^ spareBits (num / den)) < 2 ^ 53 := by
    rw [← Nat.div_div_eq_div_mul]
    exact div_spareBits_lt (num / den)
  have hle : num ≤ 2 ^ 53 * (den * 2 ^ spareBits (num / den)) :=
    Nat.le_of_lt ((Nat.div_lt_iff_lt_mul hpos).1 hlt)
  rw [roundUnits_eq, Nat.pow_add]
  exact Nat.mul_le_mul_right _ (nearest_le_of_le hpos hle)

theorem two_pow_le_roundUnits {num den : Nat} (hden : 0 < den) (h : 0 < spareBits (num / den)) :
    2 ^ (52 + spareBits (num / den)) ≤ roundUnits num den := by
  have hpos : 0 < den * 2 ^ spareBits (num / den) := Nat.mul_pos hden (Nat.two_pow_pos _)
  have hge : 2 ^ 52 * (den * 2 ^ spareBits (num / den)) ≤ num := by
    have hdiv := (Nat.le_div_iff_mul_le hden).1 (two_pow_le_of_spareBits h)
    rw [Nat.pow_add] at hdiv
    calc 2 ^ 52 * (den * 2 ^ spareBits (num / den))
        = 2 ^ 52 * 2 ^ spareBits (num / den) * den := by ac_rfl
      _ ≤ num := hdiv
  rw [roundUnits_eq, Nat.pow_add]
  exact Nat.mul_le_mul_right _ (le_nearest_of_le hpos hge)

/-- **Rounding keeps the order.** -/
theorem roundUnits_mono {a b den : Nat} (hden : 0 < den) (h : a ≤ b) :
    roundUnits a den ≤ roundUnits b den := by
  have hbits : spareBits (a / den) ≤ spareBits (b / den) := spareBits_mono (Nat.div_le_div_right h)
  rcases Nat.eq_or_lt_of_le hbits with heq | hlt
  · rw [roundUnits_eq, roundUnits_eq, heq]
    exact Nat.mul_le_mul_right _ (nearest_mono h)
  · -- A power of two lies between the two.
    calc roundUnits a den ≤ 2 ^ (53 + spareBits (a / den)) := roundUnits_le_two_pow hden
      _ ≤ 2 ^ (52 + spareBits (b / den)) := Nat.pow_le_pow_right (by decide) (by omega)
      _ ≤ roundUnits b den := two_pow_le_roundUnits hden (by omega)

/-- **A number of the format is its own rounding.** -/
theorem roundUnits_of_representable {units : Nat} (h : Representable units) : roundUnits units 1 = units := by
  obtain ⟨-, m, t, hm, hunits⟩ := h
  simp only [Nat.pow_eq] at hm hunits
  have hdvd : 2 ^ spareBits units ∣ units := by
    rcases Nat.eq_zero_or_pos (spareBits units) with hzero | hpos
    · simp [hzero]
    · have hlow := two_pow_le_of_spareBits hpos
      have hhigh : units < 2 ^ (53 + t) := by
        rw [hunits, Nat.pow_add]
        exact Nat.mul_lt_mul_of_pos_right hm (Nat.two_pow_pos t)
      have hbits : 52 + spareBits units < 53 + t :=
        (Nat.pow_lt_pow_iff_right (by decide)).1 (Nat.lt_of_le_of_lt hlow hhigh)
      have hdvd : 2 ^ spareBits units ∣ 2 ^ t := Nat.pow_dvd_pow 2 (by omega)
      exact Nat.dvd_trans hdvd (hunits ▸ Nat.dvd_mul_left _ m)
  obtain ⟨k, hk⟩ := hdvd
  have hnearest : nearest units (2 ^ spareBits units) = k := by
    have hmul := nearest_mul (Nat.two_pow_pos (spareBits units)) k
    rwa [Nat.mul_comm, ← hk] at hmul
  rw [roundUnits_eq, Nat.div_one, Nat.one_mul, hnearest, Nat.mul_comm, ← hk]

/-! ## Integers -/

/-- The place of the rounded integer in the order of the numbers. -/
def roundedUnits (n : Int) : Int :=
  let units := min (roundUnits (n.natAbs * unit) 1) bound
  if n < 0 then -units else units

theorem rank_ofRatio (negative : Bool) (num den : Nat) : (ofRatio negative num den).rank =
    some (if negative then -((min (roundUnits num den) bound : Nat) : Int)
      else ((min (roundUnits num den) bound : Nat) : Int)) := by
  unfold ofRatio
  split
  · rename_i h
    rw [Nat.min_eq_left (Nat.le_of_lt h)]
    rfl
  · rename_i h
    rw [Nat.min_eq_right (Nat.not_lt.1 h)]
    rfl

theorem rank_ofInt (n : Int) : (ofInt n).rank = some (roundedUnits n) := by
  rw [ofInt, rank_ofRatio]
  simp only [decide_eq_true_eq, roundedUnits]

/-- **Integers are never put in the wrong order by rounding.** -/
theorem roundedUnits_mono {m n : Int} (h : m ≤ n) : roundedUnits m ≤ roundedUnits n := by
  have hround {a b : Nat} (hab : a ≤ b) :
      min (roundUnits (a * unit) 1) bound ≤ min (roundUnits (b * unit) 1) bound := by
    have hle := roundUnits_mono Nat.one_pos (Nat.mul_le_mul_right unit hab)
    omega
  unfold roundedUnits
  by_cases hm : m < 0
  · by_cases hn : n < 0
    · have hle := hround (show n.natAbs ≤ m.natAbs by omega)
      rw [if_pos hm, if_pos hn]
      omega
    · rw [if_pos hm, if_neg hn]
      omega
  · have hle := hround (show m.natAbs ≤ n.natAbs by omega)
    rw [if_neg hm, if_neg (show ¬n < 0 by omega)]
    omega

structure IsInt (x : Binary64) (n : Int) : Prop where
  finite : x.isFinite = true
  rank : x.rank = some (n * unit)

variable {x : Binary64} {m n : Int}

theorem IsInt.unique (hm : x.IsInt m) (hn : x.IsInt n) : m = n := by
  have hplace : m * unit = n * unit := Option.some.inj (hm.rank.symm.trans hn.rank)
  have hunit : 0 < unit := by
    unfold unit
    exact two_pow_pos _
  exact Int.eq_of_mul_eq_mul_right (by omega) hplace

theorem IsInt.representable (h : x.IsInt n) : Representable (n.natAbs * unit) := by
  obtain ⟨hfinite, hrank⟩ := h
  cases x with
  | nan => cases hfinite
  | infinite negative => cases hfinite
  | finite negative units hunits =>
    have habs : units = n.natAbs * unit := by
      have hplace := congrArg Int.natAbs (Option.some.inj hrank)
      rw [Int.natAbs_mul, Int.natAbs_natCast] at hplace
      rw [← hplace]
      cases negative <;> simp
    rwa [← habs]

theorem roundedUnits_of_representable (h : Representable (n.natAbs * unit)) :
    roundedUnits n = n * unit := by
  unfold roundedUnits
  rw [roundUnits_of_representable h, Nat.min_eq_left (Nat.le_of_lt h.1)]
  dsimp only
  rw [Int.natCast_mul]
  by_cases hn : n < 0
  · rw [if_pos hn, ← Int.neg_mul]
    congr 1
    omega
  · rw [if_neg hn]
    congr 1
    omega

theorem isFinite_of_rank_lt {k : Int} (h : x.rank = some k) (hlow : -bound < k) (hhigh : k < bound) :
    x.isFinite = true := by
  cases x with
  | nan => cases h
  | infinite negative =>
    have hplace := Option.some.inj h
    cases negative with
    | false =>
      rw [if_neg Bool.false_ne_true] at hplace
      omega
    | true =>
      rw [if_pos rfl] at hplace
      omega
  | finite negative units hunits => rfl

/-- A rounded integer is another integer of the format exactly if it has its place. -/
theorem isInt_ofInt_iff (h : Representable (n.natAbs * unit)) :
    (ofInt m).IsInt n ↔ roundedUnits m = n * unit := by
  constructor
  · intro hm
    exact Option.some.inj ((rank_ofInt m).symm.trans hm.rank)
  · intro hm
    have hrank : (ofInt m).rank = some (n * unit) := by rw [rank_ofInt, hm]
    have hbound : ((n * unit).natAbs : Int) < bound := by
      rw [Int.natAbs_mul, Int.natAbs_natCast]
      exact Int.ofNat_lt.2 h.1
    exact ⟨isFinite_of_rank_lt hrank (by omega) (by omega), hrank⟩

/-- **A rounded integer compares with an integer of the format as the integers do**, unless it was
rounded to this very one. -/
theorem compare_ofInt (hx : x.IsInt n) : (ofInt m).compare x =
    some (Ord.compare m n) ↔ m = n ∨ ¬(ofInt m).IsInt n := by
  have hn : roundedUnits n = n * unit := roundedUnits_of_representable hx.representable
  rw [isInt_ofInt_iff hx.representable, ← hn, compare, rank_ofInt, hx.rank, ← hn]
  simp only [Option.some.injEq]
  rcases Int.lt_trichotomy m n with hlt | rfl | hgt
  · have hle := roundedUnits_mono (Int.le_of_lt hlt)
    rw [Int.compare_eq_lt.2 hlt, Int.compare_eq_lt]
    omega
  · simp
  · have hle := roundedUnits_mono (Int.le_of_lt hgt)
    rw [Int.compare_eq_gt.2 hgt, Int.compare_eq_gt]
    omega

theorem mul_two_pow_lt {m a b k : Nat} (hm : m ≤ 2 ^ a) (h : a < b) : m * Nat.pow 2 k < Nat.pow 2 (b + k) := by
  rw [Nat.pow_eq, Nat.pow_eq, Nat.pow_add]
  exact Nat.mul_lt_mul_of_pos_right (Nat.lt_of_le_of_lt hm (Nat.pow_lt_pow_right (by decide) h))
    (Nat.two_pow_pos k)

theorem exists_significant {m k : Nat} (h : m ≤ 2 ^ 53) :
    ∃ m' s : Nat, m' < Nat.pow 2 53 ∧ m * Nat.pow 2 k = m' * Nat.pow 2 s := by
  rcases Nat.eq_or_lt_of_le h with rfl | hlt
  · refine ⟨1, 53 + k, by decide, ?_⟩
    rw [Nat.one_mul, Nat.pow_eq, Nat.pow_eq, Nat.pow_add]
  · exact ⟨m, k, hlt, rfl⟩

/-- The format holds the integers of up to 53 bits. -/
theorem isInt_ofInt_of_le (h : n.natAbs ≤ 2 ^ 53) : (ofInt n).IsInt n := by
  have hunits : Representable (n.natAbs * unit) := by
    unfold Representable unit bound
    exact ⟨mul_two_pow_lt h (by decide), exists_significant h⟩
  exact (isInt_ofInt_iff hunits).2 (roundedUnits_of_representable hunits)

end RecordQuery.Binary64
