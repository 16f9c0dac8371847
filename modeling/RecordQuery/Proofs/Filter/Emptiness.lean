import RecordQuery.Proofs.Filter.Conjunction
import RecordQuery.Proofs.Filter.Agreement

/-!
# Filters for empty values

* `Value.equal_null`, `Value.equal_blank` : the values that are equal to null, and to the empty text;
* `predicate_isNotEmpty` : the filter for the values that are not empty is the other one negated;
* `Emptiness.exists_eval` : what is asked for a property that is empty;
* `test_isEmpty_isNotEmpty` : the rows that the two filters find.

A property that is no text is compared with the constant that the descriptor's value denotes. It is
found empty where it is null only if this constant is null.
-/

namespace RecordQuery

/-! ## Equal to nothing -/

theorem Value.equal_null {v : Value} : v.equal .null = true ↔ v = .null := by
  cases v <;> simp [equal]

theorem Value.equal_blank {v : Value} : v.equal (.string "") = true ↔ v = .string "" := by
  cases v with
  | string t => rw [equal_string, beq_iff_eq, Value.string.injEq]
  | _ => simp [equal, eqv, compare]

namespace Filter
open RecordQuery.Expr

variable {s : Schema} {separator : String} {property e : Expr} {raw : Option String} {p root : Param}
  {arg v : Value} {path : String}

theorem mkNot_emptiness (h : emptiness s property raw = .ok e) : mkNot e = .ok (.not e) :=
  mkNot_eq_ok.2 ⟨by rw [(of_emptiness_eq_ok h).isTest.ty]; rfl, rfl⟩

/-- The two filters are refused for the same reasons, and one is the other negated. -/
theorem predicate_isNotEmpty (s : Schema) (separator : String) (root : Param) (path : String)
    (raw : Option String) : predicate s separator root ⟨path, .isNotEmpty, raw⟩ =
      (predicate s separator root ⟨path, .isEmpty, raw⟩).map .not := by
  unfold predicate
  cases resolve s (.param root) path with
  | error err => rfl
  | ok property =>
    simp only [ok_bind]
    cases h : emptiness s property raw with
    | error err => rfl
    | ok e =>
      rw [ok_bind, mkNot_emptiness h]
      rfl

/-- **What is asked for a property that is empty** is true or false. For text it is true exactly on null
and on the empty text, and otherwise exactly on the values equal to the constant. -/
theorem Emptiness.exists_eval (h : Emptiness s property raw e) (hread : property.eval p arg = .ok v) :
    ∃ b, e.eval p arg = .ok (.bool b) ∧
      (property.ty.isText = true → (b = true ↔ v = .null ∨ v = .string "")) ∧
      (property.ty.isText = false → ∃ c, constantValue s raw property.ty = .ok c ∧
        (b = true ↔ v.equal c = true)) := by
  have hequal {ty : Ty} (c : Value) : (Expr.binary .equal property (.literal c ty)).eval p arg =
      .ok (.bool (v.equal c)) := eval_comparison rfl hread (eval_literal _ _)
  cases h with
  | text hty =>
    have hnull : (Expr.binary .equal property (null property.ty)).eval p arg =
        .ok (.bool (v.equal .null)) := hequal .null
    have hblank : ∀ x ∈ [Expr.binary .equal property (.literal (.string "") property.ty)],
        ∃ b, x.eval p arg = .ok (.bool b) := List.forall_mem_singleton.2 ⟨_, hequal _⟩
    obtain ⟨b, hb, hiff⟩ :=
      exists_eval_foldl_bool (show BinaryOp.or.decisive? = some true from rfl) hnull hblank
    refine ⟨b, hb, fun _ => ?_, fun hnot => absurd (hty.symm.trans hnot) (by simp)⟩
    rw [hiff, Value.equal_null, List.exists_mem_cons_iff, hequal, Except.ok.injEq, Value.bool.injEq,
      Value.equal_blank]
    simp
  | @other c hty hc =>
    refine ⟨v.equal c, eval_comparison rfl hread (eval_constantExpr p arg c _), ?_, ?_⟩
    · exact fun htext => absurd (hty.symm.trans htext) (by simp)
    · exact fun _ => ⟨c, hc, Iff.rfl⟩

/-! ## Filters for empty values -/

/-- **What the filters for empty values mean.** The filter for values that are not empty is made when the
one for empty values is, and finds exactly the rows that this one does not find. This one finds the rows
where the property is null or empty text, if the property is text or the constant that the descriptor's
value denotes is null. Otherwise it finds the rows where the property is equal to this constant. -/
theorem test_isEmpty_isNotEmpty (s : Schema) (separator : String) (root : Param) (path : String)
    (raw : Option String) :
    predicate s separator root ⟨path, .isNotEmpty, raw⟩ =
      (predicate s separator root ⟨path, .isEmpty, raw⟩).map .not ∧
    ∀ e, predicate s separator root ⟨path, .isEmpty, raw⟩ = .ok e →
      ∃ property, resolve s (.param root) path = .ok property ∧
        ∀ row v, row.readPath path = .ok v →
          ∃ b, Lambda.test ⟨root, e⟩ row = .ok b ∧ Lambda.test ⟨root, .not e⟩ row = .ok (!b) ∧
            (property.ty.isText = true ∨ constantValue s raw property.ty = .ok .null →
              (b = true ↔ v = .null ∨ property.ty.isText = true ∧ v = .string "")) ∧
            (property.ty.isText = false → ∃ c, constantValue s raw property.ty = .ok c ∧
              (b = true ↔ v.equal c = true)) := by
  refine ⟨predicate_isNotEmpty s separator root path raw, fun e h => ?_⟩
  obtain ⟨property, hproperty, h⟩ := bind_eq_ok.1 h
  refine ⟨property, hproperty, fun row v hv => ?_⟩
  have hread : property.eval root row = .ok v := (eval_resolve_param hproperty).trans hv
  obtain ⟨b, hb, htext, hother⟩ := (of_emptiness_eq_ok h).exists_eval hread
  have hnot : (Expr.not e).eval root row = .ok (.ofTruth (some !b)) := by
    rw [eval, hb]
    rfl
  refine ⟨b, ?_, ?_, ?_, hother⟩
  · rw [Lambda.test_of_eq_ok (t := some b) hb]
    cases b <;> rfl
  · rw [Lambda.test_of_eq_ok hnot]
    cases b <;> rfl
  · cases hty : property.ty.isText with
    | true => simpa using htext hty
    | false =>
      obtain ⟨c, hc, hiff⟩ := hother hty
      rintro (hnot | hnull)
      · cases hnot
      · cases hc.symm.trans hnull
        rw [hiff, Value.equal_null]
        simp

/-! ## Ages that are not known -/

def visitors : Schema := ⟨[⟨"Visitor", [⟨"Name", .string⟩, ⟨"Age", .nullable .int⟩]⟩], []⟩

def visitor : Param := ⟨1, "x", .record "Visitor"⟩

def visitorAge : Expr := .field (.param visitor) "Age" (.nullable .int)

def ageUnknown : Expr := .binary .equal visitorAge (.convert (.literal .null .int) (.nullable .int))

theorem predicate_ageUnknown :
    predicate visitors "," visitor ⟨"Age", .isEmpty, some ""⟩ = .ok ageUnknown := by rfl

theorem test_ageUnknown :
    predicate visitors "," visitor ⟨"Age", .isEmpty, some ""⟩ = .ok ageUnknown ∧
      Lambda.test ⟨visitor, ageUnknown⟩ (.record []) = .ok true ∧
      Lambda.test ⟨visitor, .not ageUnknown⟩ (.record [("Age", .int 5)]) = .ok true := by
  obtain ⟨-, hmeaning⟩ := test_isEmpty_isNotEmpty visitors "," visitor "Age" (some "")
  obtain ⟨property, hproperty, hrows⟩ := hmeaning _ predicate_ageUnknown
  cases (show Except.ok visitorAge = .ok property from hproperty)
  refine ⟨predicate_ageUnknown, ?_, ?_⟩
  · obtain ⟨b, hb, -, hiff, -⟩ := hrows (.record []) .null rfl
    rw [hb, (hiff (.inr rfl)).2 (.inl rfl)]
  · obtain ⟨b, -, hb, hiff, -⟩ := hrows (.record [("Age", .int 5)]) (.int 5) rfl
    have hnot : b ≠ true := by simp [(hiff (.inr rfl)), visitorAge, Ty.isText, Ty.underlying, ty]
    rw [hb, Bool.eq_false_iff.2 hnot]
    rfl

/-- With the value `5` the filter for empty ages finds the visitors of age 5, and not those of unknown
age. -/
theorem test_isEmpty_five :
    ∃ e, predicate visitors "," visitor ⟨"Age", .isEmpty, some "5"⟩ = .ok e ∧
      Lambda.test ⟨visitor, e⟩ (.record [("Age", .int 5)]) = .ok true ∧
      Lambda.test ⟨visitor, e⟩ (.record [("Age", .null)]) = .ok false :=
  ⟨_, rfl, rfl, rfl⟩

end Filter

end RecordQuery
