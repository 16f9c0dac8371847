import RecordQuery.Proofs.Number.Rounding
import RecordQuery.Proofs.Value.Order

/-!
# Laws of the order of values

Comparing values in the other order gives the reverse outcome. Comparisons chain, apart from one case:
two integers that differ are both equal to one float when both are rounded to it.

* `Value.compare_swap` : the reverse outcome;
* `Value.IsKind` : a kind of values that is compared by keys, in which comparisons chain (`IsKind.chains`);
* `Value.Merged` : three values of which two are integers that differ and are both equal to the third;
* `Value.chains_iff` : comparisons chain exactly where integers are not merged;
* `Value.compare_laws` : the laws together, and when integers are compared with floats as integers.
-/

namespace RecordQuery

/-- What an order says of the first and the last of three values, given what it says of the first two and
of the last two: it keeps the direction, and the first is the last only if all are equal. -/
structure Chains (o o' r : Ordering) : Prop where
  ne_gt : r ≠ .gt
  eq : r = .eq → o = .eq ∧ o' = .eq

theorem chains_of_transCmp {κ : Type} {cmp : κ → κ → Ordering} [Std.TransCmp cmp] {x y z : κ}
    (hxy : cmp x y ≠ .gt) (hyz : cmp y z ≠ .gt) : Chains (cmp x y) (cmp y z) (cmp x z) := by
  replace hxy := Ordering.isLE_iff_ne_gt.2 hxy
  replace hyz := Ordering.isLE_iff_ne_gt.2 hyz
  refine ⟨Ordering.isLE_iff_ne_gt.1 (Std.TransCmp.isLE_trans hxy hyz), fun h => ?_⟩
  have hzx : cmp z x = .eq := Std.OrientedCmp.eq_symm h
  constructor
  · refine Std.OrientedCmp.isLE_antisymm hxy ?_
    exact Std.TransCmp.isLE_trans hyz (Ordering.isLE_of_eq_eq hzx)
  · refine Std.OrientedCmp.isLE_antisymm hyz ?_
    exact Std.TransCmp.isLE_trans (Ordering.isLE_of_eq_eq hzx) hxy

namespace Binary64
variable {x y z : Binary64} {o o' : Ordering}

theorem compare_eq_some_iff : x.compare y = some o ↔
    ∃ p q, x.rank = some p ∧ y.rank = some q ∧ Ord.compare p q = o := by
  unfold compare
  cases x.rank <;> cases y.rank <;> simp

theorem compare_swap (x y : Binary64) : y.compare x = (x.compare y).map Ordering.swap := by
  unfold compare
  cases x.rank with
  | none => cases y.rank <;> rfl
  | some p =>
    cases y.rank with
    | none => rfl
    | some q => exact congrArg some Std.OrientedCmp.eq_swap

theorem chains (hxy : x.compare y = some o) (hyz : y.compare z = some o') (ho : o ≠ .gt)
    (ho' : o' ≠ .gt) : ∃ r, x.compare z = some r ∧ Chains o o' r := by
  obtain ⟨p, q, hx, hy, rfl⟩ := compare_eq_some_iff.1 hxy
  obtain ⟨q', k, hy', hz, rfl⟩ := compare_eq_some_iff.1 hyz
  obtain rfl : q = q' := Option.some.inj (hy.symm.trans hy')
  exact ⟨_, compare_eq_some_iff.2 ⟨p, k, hx, hz, rfl⟩, chains_of_transCmp ho ho'⟩

end Binary64

namespace Value
variable {a b c : Value} {o o' : Ordering}

/-- Comparing in the other order gives the reverse outcome, and is possible for the same values. -/
theorem compare_swap (a b : Value) : b.compare a = (a.compare b).map Ordering.swap := by
  cases a <;> cases b
  case bool.bool => exact congrArg some Std.OrientedCmp.eq_swap
  case int.int => exact congrArg some Std.OrientedCmp.eq_swap
  case float.float x y => exact x.compare_swap y
  case int.float m y => exact (Binary64.ofInt m.toInt).compare_swap y
  case float.int x n => exact x.compare_swap (.ofInt n.toInt)
  case string.string => exact congrArg some Std.OrientedCmp.eq_swap
  case uuid.uuid =>
    rw [compare, compare, Uuid.compare, Uuid.compare]
    exact congrArg some Std.OrientedCmp.eq_swap
  case date.date d e =>
    rw [compare, compare, Date.compare_eq, Date.compare_eq]
    exact congrArg some Std.OrientedCmp.eq_swap
  case dateTime.dateTime t u =>
    rw [compare, compare, DateTime.compare_eq, DateTime.compare_eq]
    exact congrArg some Std.OrientedCmp.eq_swap
  case enum.enum => exact congrArg some Std.OrientedCmp.eq_swap
  all_goals rfl

/-! ## Kinds of values -/

/-- The values of a kind are compared by keys, and with one another only. -/
structure IsKind {α κ : Type} (mk : α → Value) (key : α → κ) (cmp : κ → κ → Ordering) : Prop where
  compare_eq (x y : α) : (mk x).compare (mk y) = some (cmp (key x) (key y))
  exists_eq {x : α} {v : Value} {o : Ordering} (h : (mk x).compare v = some o) : ∃ y, v = mk y

theorem IsKind.chains {α κ : Type} {mk : α → Value} {key : α → κ} {cmp : κ → κ → Ordering}
    [Std.TransCmp cmp] (hkind : IsKind mk key cmp) {x : α} (hab : (mk x).compare b = some o)
    (hbc : b.compare c = some o') (ho : o ≠ .gt) (ho' : o' ≠ .gt) :
    ∃ r, (mk x).compare c = some r ∧ Chains o o' r := by
  obtain ⟨y, rfl⟩ := hkind.exists_eq hab
  obtain ⟨z, rfl⟩ := hkind.exists_eq hbc
  rw [hkind.compare_eq, Option.some.injEq] at hab hbc
  subst hab hbc
  exact ⟨_, hkind.compare_eq x z, chains_of_transCmp ho ho'⟩

theorem isKind_bool : IsKind .bool id Ord.compare :=
  ⟨fun _ _ => rfl, fun {_ v _} h => by cases v <;> first | exact ⟨_, rfl⟩ | cases h⟩

theorem isKind_string : IsKind .string String.toList (List.compareLex Ord.compare) :=
  ⟨fun _ _ => rfl, fun {_ v _} h => by cases v <;> first | exact ⟨_, rfl⟩ | cases h⟩

theorem isKind_uuid : IsKind .uuid Uuid.digits (List.compareLex Ord.compare) :=
  ⟨fun _ _ => rfl, fun {_ v _} h => by cases v <;> first | exact ⟨_, rfl⟩ | cases h⟩

theorem isKind_date : IsKind .date Date.dayNumber Ord.compare :=
  ⟨fun d e => congrArg some (Date.compare_eq d e),
    fun {_ v _} h => by cases v <;> first | exact ⟨_, rfl⟩ | cases h⟩

theorem isKind_dateTime : IsKind .dateTime DateTime.instant Ord.compare :=
  ⟨fun t u => congrArg some (DateTime.compare_eq t u),
    fun {_ v _} h => by cases v <;> first | exact ⟨_, rfl⟩ | cases h⟩

theorem isKind_enum : IsKind .enum (Int64.toInt ∘ Constant.ordinal) Ord.compare :=
  ⟨fun _ _ => rfl, fun {_ v _} h => by cases v <;> first | exact ⟨_, rfl⟩ | cases h⟩

/-! ## Numbers -/

/-- The float is equal to two integers that differ. -/
structure Merges (x : Binary64) (m n : Int64) : Prop where
  lt : m.toInt < n.toInt
  left : (Value.int m).compare (.float x) = some .eq
  right : (Value.int n).compare (.float x) = some .eq

/-- Two of the three values are integers that differ, both equal to the third one, a float. They stand
side by side with the smaller one first, or around the float with the larger one first. -/
inductive Merged : Value → Value → Value → Prop
  | before {x : Binary64} {m n : Int64} (h : Merges x m n) : Merged (.int m) (.int n) (.float x)
  | after {x : Binary64} {m n : Int64} (h : Merges x m n) : Merged (.float x) (.int m) (.int n)
  | around {x : Binary64} {m n : Int64} (h : Merges x m n) : Merged (.int n) (.float x) (.int m)

section Numbers
variable {x : Binary64} {m n : Int64} {p q : Int}

theorem int_compare_float (m : Int64) (x : Binary64) :
    (Value.int m).compare (.float x) = (Binary64.ofInt m.toInt).compare x := by rw [compare]

theorem float_compare_int (x : Binary64) (m : Int64) :
    (Value.float x).compare (.int m) = x.compare (.ofInt m.toInt) := by rw [compare]

theorem float_compare_float (x y : Binary64) : (Value.float x).compare (.float y) = x.compare y := by
  rw [compare]

theorem int_compare_float_of_rank (hx : x.rank = some p) : (Value.int m).compare (.float x) =
    some (Ord.compare (Binary64.roundedUnits m.toInt) p) := by
  rw [int_compare_float, Binary64.compare_eq_some_iff]
  exact ⟨_, p, Binary64.rank_ofInt _, hx, rfl⟩

theorem float_compare_int_of_rank (hx : x.rank = some p) : (Value.float x).compare (.int m) =
    some (Ord.compare p (Binary64.roundedUnits m.toInt)) := by
  rw [float_compare_int, Binary64.compare_eq_some_iff]
  exact ⟨p, _, hx, Binary64.rank_ofInt _, rfl⟩

theorem exists_rank_of_int_compare (h : (Value.int m).compare (.float x) = some o) :
    ∃ p, x.rank = some p := by
  rw [int_compare_float, Binary64.compare_eq_some_iff] at h
  obtain ⟨-, p, -, hx, -⟩ := h
  exact ⟨p, hx⟩

theorem exists_rank_of_compare_int (h : (Value.float x).compare (.int m) = some o) :
    ∃ p, x.rank = some p := by
  rw [float_compare_int, Binary64.compare_eq_some_iff] at h
  obtain ⟨p, -, hx, -⟩ := h
  exact ⟨p, hx⟩

theorem merges_iff_of_rank (hx : x.rank = some p) : Merges x m n ↔ m.toInt < n.toInt ∧
    Binary64.roundedUnits m.toInt = p ∧ Binary64.roundedUnits n.toInt = p := by
  have hequal (k : Int64) : (Value.int k).compare (.float x) = some .eq ↔
      Binary64.roundedUnits k.toInt = p := by
    rw [int_compare_float_of_rank hx, Option.some.injEq, Int.compare_eq_eq]
  constructor
  · intro ⟨hlt, hm, hn⟩
    exact ⟨hlt, (hequal m).1 hm, (hequal n).1 hn⟩
  · intro ⟨hlt, hm, hn⟩
    exact ⟨hlt, (hequal m).2 hm, (hequal n).2 hn⟩

theorem chains_of_ints {k : Int64} (hab : (Value.int m).compare (.int n) = some o)
    (hbc : (Value.int n).compare (.int k) = some o') (ho : o ≠ .gt) (ho' : o' ≠ .gt) :
    ∃ r, (Value.int m).compare (.int k) = some r ∧ Chains o o' r := by
  rw [compare, Option.some.injEq] at hab hbc
  subst hab hbc
  exact ⟨_, rfl, chains_of_transCmp ho ho'⟩

theorem chains_compare_iff {i j k l : Int} :
    Chains (Ord.compare p q) (Ord.compare i j) (Ord.compare k l) ↔ k ≤ l ∧ (k = l → p = q ∧ i = j) := by
  rw [← Int.compare_eq_eq, ← Int.compare_eq_eq, ← Int.compare_eq_eq, ← Int.not_lt, ← Int.compare_eq_gt]
  exact ⟨fun h => ⟨h.ne_gt, h.eq⟩, fun h => ⟨h.1, h.2⟩⟩

theorem merged_before_iff : Merged (.int m) (.int n) (.float x) ↔ Merges x m n :=
  ⟨fun | .before h => h, .before⟩

theorem merged_after_iff : Merged (.float x) (.int m) (.int n) ↔ Merges x m n :=
  ⟨fun | .after h => h, .after⟩

theorem merged_around_iff : Merged (.int n) (.float x) (.int m) ↔ Merges x m n :=
  ⟨fun | .around h => h, .around⟩

/-- Two integers and a float after them chain unless both integers are equal to the float. -/
theorem chains_iff_before (hab : (Value.int m).compare (.int n) = some o)
    (hbc : (Value.int n).compare (.float x) = some o') (ho : o ≠ .gt) (ho' : o' ≠ .gt) :
    ∃ r, (Value.int m).compare (.float x) = some r ∧
      (Chains o o' r ↔ ¬Merged (.int m) (.int n) (.float x)) := by
  obtain ⟨p, hx⟩ := exists_rank_of_int_compare hbc
  refine ⟨_, int_compare_float_of_rank hx, ?_⟩
  rw [int_compare_float_of_rank hx, Option.some.injEq] at hbc
  rw [compare, Option.some.injEq] at hab
  subst hab hbc
  rw [merged_before_iff, merges_iff_of_rank hx, chains_compare_iff]
  rw [Ne, Int.compare_eq_gt, Int.not_lt] at ho ho'
  have hround := Binary64.roundedUnits_mono ho
  omega

theorem chains_iff_after (hab : (Value.float x).compare (.int m) = some o)
    (hbc : (Value.int m).compare (.int n) = some o') (ho : o ≠ .gt) (ho' : o' ≠ .gt) :
    ∃ r, (Value.float x).compare (.int n) = some r ∧
      (Chains o o' r ↔ ¬Merged (.float x) (.int m) (.int n)) := by
  obtain ⟨p, hx⟩ := exists_rank_of_compare_int hab
  refine ⟨_, float_compare_int_of_rank hx, ?_⟩
  rw [float_compare_int_of_rank hx, Option.some.injEq] at hab
  rw [compare, Option.some.injEq] at hbc
  subst hab hbc
  rw [merged_after_iff, merges_iff_of_rank hx, chains_compare_iff]
  rw [Ne, Int.compare_eq_gt, Int.not_lt] at ho ho'
  have hround := Binary64.roundedUnits_mono ho'
  omega

theorem chains_iff_around (hab : (Value.int n).compare (.float x) = some o)
    (hbc : (Value.float x).compare (.int m) = some o') (ho : o ≠ .gt) (ho' : o' ≠ .gt) :
    ∃ r, (Value.int n).compare (.int m) = some r ∧
      (Chains o o' r ↔ ¬Merged (.int n) (.float x) (.int m)) := by
  obtain ⟨p, hx⟩ := exists_rank_of_int_compare hab
  refine ⟨_, rfl, ?_⟩
  rw [int_compare_float_of_rank hx, Option.some.injEq] at hab
  rw [float_compare_int_of_rank hx, Option.some.injEq] at hbc
  subst hab hbc
  rw [merged_around_iff, merges_iff_of_rank hx, chains_compare_iff]
  rw [Ne, Int.compare_eq_gt, Int.not_lt] at ho ho'
  rcases Int.lt_or_le m.toInt n.toInt with hlt | hle
  · have hround := Binary64.roundedUnits_mono (Int.le_of_lt hlt)
    omega
  · have hround := Binary64.roundedUnits_mono hle
    refine iff_of_true ⟨hle, fun h => ?_⟩ (by omega)
    rw [h] at ho ⊢
    omega

inductive IsNumber : Value → Prop
  | int (n : Int64) : IsNumber (.int n)
  | float (x : Binary64) : IsNumber (.float x)

theorem IsNumber.of_compare (ha : IsNumber a) (h : a.compare b = some o) : IsNumber b := by
  cases ha <;> cases b <;> first | exact .int _ | exact .float _ | cases h

theorem chains_iff_of_chains (h : ∃ r, a.compare c = some r ∧ Chains o o' r) (hmerged : ¬Merged a b c) :
    ∃ r, a.compare c = some r ∧ (Chains o o' r ↔ ¬Merged a b c) := by
  obtain ⟨r, hr, hchains⟩ := h
  exact ⟨r, hr, iff_of_true hchains hmerged⟩

theorem IsNumber.chains_iff (ha : IsNumber a) (hab : a.compare b = some o) (hbc : b.compare c = some o')
    (ho : o ≠ .gt) (ho' : o' ≠ .gt) :
    ∃ r, a.compare c = some r ∧ (Chains o o' r ↔ ¬Merged a b c) := by
  have hb : IsNumber b := ha.of_compare hab
  have hc : IsNumber c := hb.of_compare hbc
  cases ha <;> cases hb <;> cases hc
  case int.int.int m n k => exact chains_iff_of_chains (chains_of_ints hab hbc ho ho') nofun
  case int.int.float m n x => exact chains_iff_before hab hbc ho ho'
  case float.int.int x m n => exact chains_iff_after hab hbc ho ho'
  case int.float.int m x n => exact chains_iff_around hab hbc ho ho'
  all_goals
    -- At most one integer: it is compared as the float it is rounded to.
    refine chains_iff_of_chains ?_ nofun
    simp only [int_compare_float, float_compare_int, float_compare_float] at hab hbc ⊢
    exact Binary64.chains hab hbc ho ho'

end Numbers

/-- **Comparisons chain exactly where integers are not merged.** -/
theorem chains_iff (hab : a.compare b = some o) (hbc : b.compare c = some o') (ho : o ≠ .gt)
    (ho' : o' ≠ .gt) : ∃ r, a.compare c = some r ∧ (Chains o o' r ↔ ¬Merged a b c) := by
  cases a with
  | null => cases hab
  | bool x => exact chains_iff_of_chains (isKind_bool.chains hab hbc ho ho') nofun
  | int m => exact (IsNumber.int m).chains_iff hab hbc ho ho'
  | float x => exact (IsNumber.float x).chains_iff hab hbc ho ho'
  | string x => exact chains_iff_of_chains (isKind_string.chains hab hbc ho ho') nofun
  | uuid u => exact chains_iff_of_chains (isKind_uuid.chains hab hbc ho ho') nofun
  | date d => exact chains_iff_of_chains (isKind_date.chains hab hbc ho ho') nofun
  | dateTime t => exact chains_iff_of_chains (isKind_dateTime.chains hab hbc ho ho') nofun
  | enum e => exact chains_iff_of_chains (isKind_enum.chains hab hbc ho ho') nofun
  | list items => cases hab
  | record fields => cases hab
  | shape s values => cases hab

/-! ## The laws -/

/-- **The order of values is lawful but for the rounding of integers.** Comparing in the other order
gives the reverse outcome. Where the first of three values is not after the second, nor the second after
the third, the first and the third are comparable; the order chains unless the three are merged. An
integer is compared with a float that is an integer as the integers are, unless rounding makes it another
integer, which it leaves alone up to 53 bits. -/
theorem compare_laws (a b c : Value) (m : Int64) (x : Binary64) (n : Int) :
    b.compare a = (a.compare b).map Ordering.swap ∧
      (∀ o o', a.compare b = some o → b.compare c = some o' → o ≠ .gt → o' ≠ .gt →
        ∃ r, a.compare c = some r ∧ (Chains o o' r ↔ ¬Merged a b c)) ∧
      (x.IsInt n → ((Value.int m).compare (.float x) = some (Ord.compare m.toInt n) ↔
        m.toInt = n ∨ ¬(Binary64.ofInt m.toInt).IsInt n)) ∧
      (x.IsInt n → m.toInt.natAbs ≤ 2 ^ 53 →
        (Value.int m).compare (.float x) = some (Ord.compare m.toInt n)) := by
  have hexact (hx : x.IsInt n) : (Value.int m).compare (.float x) = some (Ord.compare m.toInt n) ↔
      m.toInt = n ∨ ¬(Binary64.ofInt m.toInt).IsInt n := by
    rw [int_compare_float, Binary64.compare_ofInt hx]
  refine ⟨compare_swap a b, fun o o' => chains_iff, hexact, fun hx hm => (hexact hx).2 ?_⟩
  by_cases hmn : (Binary64.ofInt m.toInt).IsInt n
  · exact .inl ((Binary64.isInt_ofInt_of_le hm).unique hmn)
  · exact .inr hmn

/-- One is one, and less than two, also by way of a float. -/
theorem compare_laws_one :
    (∃ r, (Value.int 1).compare (.int 2) = some r ∧
      (Chains .eq .lt r ↔ ¬Merged (.int 1) (.float (.ofInt 1)) (.int 2))) ∧
      ((Value.int 2).compare (.float (.ofInt 1)) = some (Ord.compare (2 : Int64).toInt 1) ↔
        (2 : Int64).toInt = 1 ∨ ¬(Binary64.ofInt (2 : Int64).toInt).IsInt 1) ∧
      (Value.int 2).compare (.float (.ofInt 1)) = some (Ord.compare (2 : Int64).toInt 1) := by
  have hone : (Binary64.ofInt 1).IsInt 1 := Binary64.isInt_ofInt_of_le (by decide)
  obtain ⟨-, hchains, hexact, hsmall⟩ :=
    compare_laws (.int 1) (.float (.ofInt 1)) (.int 2) 2 (.ofInt 1) 1
  refine ⟨?_, hexact hone, hsmall hone (by decide)⟩
  exact hchains .eq .lt (by decide +kernel) (by decide +kernel) (by decide) (by decide)

/-- Two integers that differ are equal to one float: the first of them is equal to the float, the float
to the second, and yet the first comes after the second; and the float is the second integer. -/
theorem compare_merged :
    (Value.int 9007199254740993).compare (.float (.ofInt 9007199254740992)) = some .eq ∧
      (Value.float (.ofInt 9007199254740992)).compare (.int 9007199254740992) = some .eq ∧
      (Value.int 9007199254740993).compare (.int 9007199254740992) = some .gt ∧
      (Binary64.ofInt 9007199254740992).IsInt 9007199254740992 :=
  ⟨by decide +kernel, by decide +kernel, by decide +kernel, Binary64.isInt_ofInt_of_le (by decide)⟩

end Value
end RecordQuery
