import RecordQuery.Expr.Eval
import RecordQuery.Proofs.Calendar.Order
import RecordQuery.Proofs.Value.Conformance

/-!
# The order of values

Integers, texts, dates and moments are each in one order, and values that are not ordered one before the
other are equal.

* `Value.Precedes` : one value comes before another of its kind;
* `Value.Ranks` : the outcome of a comparison tells which of two values comes first;
* `ranks_compare_string`, `Ranks.of_numbers` : texts are compared by code points, other values by numbers;
* `Conforms.exists_ranks` : values of an orderable type are ranked, unless they are null or floats.
-/

namespace RecordQuery

theorem Text.compare_eq_lt {c d : Char} : Ord.compare c d = .lt ↔ c < d := by
  show compareOfLessAndEq c d = .lt ↔ c < d
  unfold compareOfLessAndEq
  by_cases hlt : c < d
  · simp [hlt]
  · by_cases heq : c = d <;> simp [hlt, heq]

/-- Texts are compared by the first character at which they differ. -/
theorem Text.compareLex_eq_lt {cs ds : List Char} :
    List.compareLex Ord.compare cs ds = .lt ↔ cs < ds := by
  induction cs generalizing ds with
  | nil =>
    cases ds with
    | nil => simp [List.compareLex_nil_nil]
    | cons d ds => simp [List.compareLex_nil_cons]
  | cons c cs ih =>
    cases ds with
    | nil => simp [List.compareLex_cons_nil]
    | cons d ds =>
      rw [List.compareLex_cons_cons, Ordering.then_eq_lt, List.cons_lt_cons_iff, ih, compare_eq_lt,
        Std.LawfulEqOrd.compare_eq_iff_eq]

namespace Value

/-- The value comes before the other one: integers by size, texts by code points, dates in the calendar,
and moments in time. -/
inductive Precedes : Value → Value → Prop
  | int {m n : Int64} (h : m.toInt < n.toInt) : Precedes (.int m) (.int n)
  | string {a b : String} (h : a.toList < b.toList) : Precedes (.string a) (.string b)
  | date {d e : Date} (h : d.dayNumber < e.dayNumber) : Precedes (.date d) (.date e)
  | dateTime {t u : DateTime} (h : t.instant < u.instant) : Precedes (.dateTime t) (.dateTime u)

/-- The outcome of a comparison tells which of the two values comes first. -/
structure Ranks (o : Ordering) (v w : Value) : Prop where
  lt : o = .lt ↔ v.Precedes w
  eq : o = .eq ↔ v = w
  gt : o = .gt ↔ w.Precedes v

/-! ## Kinds of values -/

theorem Ranks.of_numbers {x y : Int} {v w : Value} (hlt : x < y ↔ v.Precedes w)
    (heq : x = y ↔ v = w) (hgt : y < x ↔ w.Precedes v) : Ranks (Ord.compare x y) v w :=
  ⟨Int.compare_eq_lt.trans hlt, Int.compare_eq_eq.trans heq, Int.compare_eq_gt.trans hgt⟩

theorem ranks_compare_int (m n : Int64) : Ranks (Ord.compare m.toInt n.toInt) (.int m) (.int n) := by
  refine .of_numbers ⟨.int, fun h => ?_⟩ ?_ ⟨.int, fun h => ?_⟩
  · cases h with
    | int h => exact h
  · rw [Int64.toInt_inj, int.injEq]
  · cases h with
    | int h => exact h

theorem ranks_compare_date (d e : Date) : Ranks (d.compare e) (.date d) (.date e) := by
  rw [Date.compare_eq]
  refine .of_numbers ⟨.date, fun h => ?_⟩ ?_ ⟨.date, fun h => ?_⟩
  · cases h with
    | date h => exact h
  · rw [Date.dayNumber_inj, date.injEq]
  · cases h with
    | date h => exact h

theorem ranks_compare_dateTime (t u : DateTime) :
    Ranks (t.compare u) (.dateTime t) (.dateTime u) := by
  rw [DateTime.compare_eq]
  refine .of_numbers ⟨.dateTime, fun h => ?_⟩ ?_ ⟨.dateTime, fun h => ?_⟩
  · cases h with
    | dateTime h => exact h
  · rw [DateTime.instant_inj, dateTime.injEq]
  · cases h with
    | dateTime h => exact h

theorem ranks_compare_string (a b : String) :
    Ranks (List.compareLex Ord.compare a.toList b.toList) (.string a) (.string b) := by
  refine ⟨?_, ?_, ?_⟩
  · rw [Text.compareLex_eq_lt]
    refine ⟨.string, fun h => ?_⟩
    cases h with
    | string h => exact h
  · rw [Std.LawfulEqCmp.compare_eq_iff_eq, String.toList_inj, string.injEq]
  · rw [Std.OrientedCmp.gt_iff_lt, Text.compareLex_eq_lt]
    refine ⟨.string, fun h => ?_⟩
    cases h with
    | string h => exact h

/-! ## Types -/

variable {s : Schema} {v w : Value} {ty : Ty}

/-- Where values are ranked, those that one of the two equalities finds equal are the same. -/
theorem Ranks.equal_iff {o : Ordering} (h : Ranks o v w) (hcompare : v.compare w = some o)
    (heqv : v.eqv w = true → v = w) : (v.eqv w || v.compare w == some .eq) = true ↔ v = w := by
  rw [hcompare, Bool.or_eq_true, beq_iff_eq, Option.some.injEq, h.eq]
  exact or_iff_right_of_imp heqv

/-- **Values of an orderable type are ranked**, and equal for expressions only if they are the same,
unless they are null or floats. -/
theorem Conforms.exists_ranks (hv : v.Conforms s ty) (hw : w.Conforms s ty) (hty : ty.isOrderable)
    (hfloat : ty.underlying ≠ .float) (hvnull : v ≠ .null) (hwnull : w ≠ .null) :
    ∃ o, v.compare w = some o ∧ Ranks o v w ∧ (v.equal w = true ↔ v = w) := by
  rcases underlying_of_isOrderable hty with hu | hu | hu | hu | hu
  · cases hv.of_underlying_eq hu with
    | null => contradiction
    | int m =>
      cases hw.of_underlying_eq hu with
      | null => contradiction
      | int n =>
        have hranks := ranks_compare_int m n
        exact ⟨_, rfl, hranks, hranks.equal_iff rfl fun h => by rw [show m = n from eq_of_beq h]⟩
  · contradiction
  · cases hv.of_underlying_eq hu with
    | null => contradiction
    | string a =>
      cases hw.of_underlying_eq hu with
      | null => contradiction
      | string b =>
        have hranks := ranks_compare_string a b
        exact ⟨_, rfl, hranks, hranks.equal_iff rfl fun h => by rw [show a = b from eq_of_beq h]⟩
  · cases hv.of_underlying_eq hu with
    | null => contradiction
    | date d =>
      cases hw.of_underlying_eq hu with
      | null => contradiction
      | date e =>
        have hranks := ranks_compare_date d e
        exact ⟨_, rfl, hranks, hranks.equal_iff rfl fun h => by rw [show d = e from eq_of_beq h]⟩
  · cases hv.of_underlying_eq hu with
    | null => contradiction
    | dateTime t =>
      cases hw.of_underlying_eq hu with
      | null => contradiction
      | dateTime u =>
        have hranks := ranks_compare_dateTime t u
        exact ⟨_, rfl, hranks, hranks.equal_iff rfl fun h => by rw [show t = u from eq_of_beq h]⟩

end Value

end RecordQuery
