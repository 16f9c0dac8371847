/-!
# Floating-point numbers of 64 bits

Every finite number of the format is a multiple of the least positive one, `2 ^ -1074`. A finite
number is kept as that multiple, so that order and arithmetic are those of the integers.

* `Representable`: the multiples that the format holds, those with 53 significant bits;
* `Binary64`: a signed representable multiple, an infinity, or no number;
* `roundUnits`, `Binary64.ofRatio`: the nearest number, a half goes to the even neighbour;
* `Binary64.rank`, `Binary64.compare`: the numerical order, in which only `nan` has no place;
* `Binary64.mul`, `Binary64.div`, `Binary64.ofInt`: exact results, rounded once.
-/

namespace RecordQuery

/-- The least positive number is `2 ^ -scale`. -/
def Binary64.scale : Nat := 1074

def Binary64.unit : Nat := Nat.pow 2 scale

/-- The first multiple beyond the finite numbers, `2 ^ 1024` in units. -/
def Binary64.bound : Nat := Nat.pow 2 (1024 + scale)

/-- A multiple of the unit that has at most 53 significant bits and is below the bound. -/
def Binary64.Representable (units : Nat) : Prop :=
  units < bound ∧ ∃ m s : Nat, m < Nat.pow 2 53 ∧ units = m * Nat.pow 2 s

inductive Binary64
  | nan
  | infinite (negative : Bool)
  | finite (negative : Bool) (units : Nat) (representable : Binary64.Representable units)
  deriving DecidableEq

namespace Binary64

theorem two_pow_pos (n : Nat) : 0 < Nat.pow 2 n := by
  rw [Nat.pow_eq]
  exact Nat.two_pow_pos n

theorem bound_pos : 0 < bound := by
  unfold bound
  exact two_pow_pos _

/-! ## Rounding -/

/-- The bits below the 53 leading ones of `n`. -/
def spareBits (n : Nat) : Nat := n.log2 + 1 - 53

/-- The natural number nearest to `num / den`; a half goes to the even neighbour. -/
def nearest (num den : Nat) : Nat :=
  let q := num / den
  let r := num % den
  if 2 * r < den then q else if den < 2 * r then q + 1 else q + q % 2

def roundUnits (num den : Nat) : Nat :=
  let s := spareBits (num / den)
  nearest num (den * Nat.pow 2 s) * Nat.pow 2 s

theorem nearest_le (num den : Nat) : nearest num den ≤ num / den + 1 := by
  have := Nat.mod_lt (num / den) (show 0 < 2 by decide)
  dsimp only [nearest]
  split
  · omega
  · split <;> omega

theorem div_spareBits_lt (n : Nat) : n / Nat.pow 2 (spareBits n) < Nat.pow 2 53 := by
  simp only [Nat.pow_eq]
  rw [Nat.div_lt_iff_lt_mul (Nat.two_pow_pos _), ← Nat.pow_add]
  exact Nat.lt_of_lt_of_le Nat.lt_log2_self
    (Nat.pow_le_pow_right (by omega) (by unfold spareBits; omega))

theorem roundUnits_significant (num den : Nat) :
    ∃ m s : Nat, m < Nat.pow 2 53 ∧ roundUnits num den = m * Nat.pow 2 s := by
  have hle := nearest_le num (den * Nat.pow 2 (spareBits (num / den)))
  rw [← Nat.div_div_eq_div_mul] at hle
  have hlt := div_spareBits_lt (num / den)
  by_cases h : nearest num (den * Nat.pow 2 (spareBits (num / den))) < Nat.pow 2 53
  · exact ⟨_, _, h, rfl⟩
  · refine ⟨Nat.pow 2 52, spareBits (num / den) + 1, by decide, ?_⟩
    have he : nearest num (den * Nat.pow 2 (spareBits (num / den))) = Nat.pow 2 53 := by omega
    dsimp only [roundUnits]
    rw [he]
    simp only [Nat.pow_eq, Nat.pow_succ]
    omega

/-- The number nearest to `± num / den` units; beyond the finite numbers it is an infinity. -/
def ofRatio (negative : Bool) (num den : Nat) : Binary64 :=
  if h : roundUnits num den < bound then
    .finite negative (roundUnits num den) ⟨h, roundUnits_significant num den⟩
  else .infinite negative

def zero (negative : Bool) : Binary64 :=
  .finite negative 0 ⟨bound_pos, 0, 0, by decide, rfl⟩

def ofInt (n : Int) : Binary64 := ofRatio (decide (n < 0)) (n.natAbs * unit) 1

def ofDecimal (negative : Bool) (n : Nat) (e : Int) : Binary64 :=
  let size := e + (Nat.toDigits 10 n).length
  if n = 0 ∨ size < -400 then zero negative
  else if 400 < size then .infinite negative
  else if 0 ≤ e then ofRatio negative (n * Nat.pow 10 e.toNat * unit) 1
  else ofRatio negative (n * unit) (Nat.pow 10 (-e).toNat)

/-! ## Order -/

def rank : Binary64 → Option Int
  | .nan => none
  | .infinite negative => some (if negative then -bound else bound)
  | .finite negative units _ => some (if negative then -units else units)

/-- The numerical order; the two zeros are equal, and `nan` is not ordered. -/
def compare (x y : Binary64) : Option Ordering :=
  match x.rank, y.rank with
  | some a, some b => some (Ord.compare a b)
  | _, _ => none

/-- Numerical equality, in which `nan` differs from itself. -/
def eqv (x y : Binary64) : Bool := x.compare y == some .eq

def isFinite : Binary64 → Bool
  | .finite .. => true
  | _ => false

def neg : Binary64 → Binary64
  | .nan => .nan
  | .infinite negative => .infinite !negative
  | .finite negative units h => .finite (!negative) units h

/-! ## Products and quotients -/

def mul : Binary64 → Binary64 → Binary64
  | .finite n u _, .finite n' u' _ => ofRatio (n != n') (u * u') unit
  | .infinite n, .infinite n' => .infinite (n != n')
  | .infinite n, .finite n' u _ => if u = 0 then .nan else .infinite (n != n')
  | .finite n u _, .infinite n' => if u = 0 then .nan else .infinite (n != n')
  | _, _ => .nan

def div : Binary64 → Binary64 → Binary64
  | .finite n u _, .finite n' u' _ =>
    if u' = 0 then if u = 0 then .nan else .infinite (n != n')
    else ofRatio (n != n') (u * unit) u'
  | .infinite n, .finite n' _ _ => .infinite (n != n')
  | .finite n _ _, .infinite n' => zero (n != n')
  | _, _ => .nan

end Binary64

end RecordQuery
