import RecordQuery.Proofs.Filter.Progress
import RecordQuery.Proofs.Filter.Settlement
import RecordQuery.Proofs.Text.Occurrence

/-!
# Filters that look for a text

A filter for values that start with a text, or that contain one, looks for the text of its constant in
the text of the property's value. It does so for every type, and null has no text in which to look and
none to look for.

* `Value.ShowsAs` : the text of a value as a value, which is null for null;
* `Method.apply_shown` : what the methods of text say of two texts;
* `Operator.FindsIn` : where the operators look for a text;
* `constantValue_eq_null` : the constants that are null;
* `Asks.exists_textMatch` : what is asked of a text, and of a value that is none;
* `test_textMatch` : the rows that the filters find.
-/

namespace RecordQuery

/-! ## Values and their texts -/

/-- The second value is the text of the first one, or both are null. -/
def Value.ShowsAs (v w : Value) : Prop := v = .null ∧ w = .null ∨ v ≠ .null ∧ w = .string v.text

namespace Value.ShowsAs
variable {s : Schema} {v w : Value}

theorem of_conforms {ty : Ty} (hty : ty.isText) (h : v.Conforms s ty) : v.ShowsAs v := by
  have htext : ty.underlying = .string := eq_of_beq hty
  cases h.of_underlying_eq htext with
  | null => exact .inl ⟨rfl, rfl⟩
  | string t => exact .inr ⟨nofun, rfl⟩

end Value.ShowsAs

theorem Method.apply_null {m : Method} (hm : m ≠ .listContains) (args : List Value) :
    m.apply .null args = .ok .null := by
  cases m with
  | listContains => contradiction
  | _ => rfl

namespace Filter
open RecordQuery.Expr

variable {s : Schema} {separator : String} {property e : Expr} {raw : Option String} {p : Param}
  {arg v c w u : Value} {op : Operator} {m : Method} {d : Descriptor}

def Operator.FindsIn (needle text : String) : Operator → Prop
  | .startsWith => needle.toList <+: text.toList
  | .contains => needle.toList <:+: text.toList
  | _ => False

theorem holds_iff_findsIn (hop : op.textMethod? = some m) (text needle : String) :
    m.holds text needle = true ↔ op.FindsIn needle text := by
  cases op with
  | startsWith =>
    cases hop
    exact Text.startsWith_iff
  | contains =>
    cases hop
    exact Text.contains_iff
  | _ => cases hop

/-- Called on the texts of two values, a method says true or false, or null if one of the two is null. -/
theorem Method.apply_shown (hop : op.textMethod? = some m) (hv : v.ShowsAs w) (hc : c.ShowsAs u) :
    ∃ t, m.apply w [u] = .ok (.ofTruth t) ∧
      (t = some true ↔ v ≠ .null ∧ c ≠ .null ∧ op.FindsIn c.text v.text) := by
  have hlist : m ≠ .listContains := Operator.ne_listContains_of_textMethod hop
  rcases hv with ⟨rfl, rfl⟩ | ⟨hvnull, rfl⟩
  · exact ⟨none, Method.apply_null hlist _, iff_of_false nofun fun h => h.1 rfl⟩
  rcases hc with ⟨rfl, rfl⟩ | ⟨hcnull, rfl⟩
  · refine ⟨none, ?_, iff_of_false nofun fun h => h.2.1 rfl⟩
    cases op <;> cases hop <;> rfl
  · refine ⟨some (m.holds v.text c.text), ?_, ?_⟩
    · cases op <;> cases hop <;> rfl
    · rw [Option.some.injEq, holds_iff_findsIn hop]
      simp [hvnull, hcnull]

/-! ## Constants that are null -/

theorem read_ne_null {raw : String} {ty : Ty} (hty : ty.isNullable = false)
    (h : Value.read s raw ty = .ok v) : v ≠ .null := by
  rintro rfl
  cases ty with
  | nullable => cases hty
  | string => cases h
  | enum name =>
    obtain ⟨c, -, hc⟩ := map_eq_ok.1 h
    cases hc
  | _ =>
    rw [Value.read] at h
    repeat' split at h
    all_goals cases h

/-- A constant is null if there is no text for it, or if the empty text stands for null. -/
theorem constantValue_eq_null {ty : Ty} (hty : ty.Flat) (h : constantValue s raw ty = .ok c) :
    c = .null ↔ raw = none ∨ raw = some "" ∧ ty.isNullable = true ∧ ty.isText = false := by
  cases raw with
  | none =>
    cases h
    simp
  | some raw =>
    have hread : Value.read s raw ty = .ok c := h
    cases hnull : ty.isNullable with
    | false => simp [read_ne_null hnull hread]
    | true =>
      cases ty with
      | nullable inner =>
        have hinner : (Ty.nullable inner).isText = inner.isText := by
          unfold Ty.isText
          rw [Ty.underlying_of_not_isNullable hty.1]
          rfl
        rw [Value.read_nullable] at hread
        rw [hinner]
        split at hread
        · rename_i hempty
          cases hread
          rw [Bool.and_eq_true, String.isEmpty_iff, Bool.not_eq_true'] at hempty
          simp [hempty]
        · rename_i hnot
          rw [Bool.and_eq_true, String.isEmpty_iff, Bool.not_eq_true'] at hnot
          simp only [read_ne_null hty.1 hread, Option.some.injEq, reduceCtorEq, true_and, false_or,
            false_iff]
          exact hnot
      | _ => cases hnull

/-! ## What is asked -/

/-- **A text is looked for in the text of the value**, whatever the type of the property is. -/
theorem Asks.exists_textMatch (h : Asks s separator property d e)
    (hop : d.operator.textMethod? = some m) :
    ∃ c, constantValue s d.value property.ty = .ok c ∧ ∀ p arg v, property.eval p arg = .ok v →
      v.Conforms s property.ty → ∃ t, e.eval p arg = .ok (.ofTruth t) ∧
        (t = some true ↔ v ≠ .null ∧ c ≠ .null ∧ d.operator.FindsIn c.text v.text) := by
  -- The other ways to ask for a property belong to operators without a method of text.
  have hother {op : Operator} (hd : d.operator = op) (hnone : op.textMethod? = Option.none) : False := by
    rw [hd, hnone] at hop
    cases hop
  cases h with
  | @textCall m c hm hty hc =>
    have hconforms : c.Conforms s property.ty := conforms_of_constantValue hc
    have hconstant : c.ShowsAs c := .of_conforms hty hconforms
    refine ⟨c, hc, fun p arg v hread hconf => ?_⟩
    obtain ⟨t, ht, hiff⟩ := Method.apply_shown hm (.of_conforms hty hconf) hconstant
    refine ⟨t, ?_, hiff⟩
    rw [eval_call_singleton hread (eval_constantExpr _ _ c _), ht]
  | @callOnTexts m c hm _ _ hc =>
    refine ⟨c, hc, fun p arg v hread _ => ?_⟩
    obtain ⟨w, hw, hv⟩ := eval_toText hread
    obtain ⟨u, hu, hconstant⟩ := eval_toText (eval_constantExpr p arg c property.ty)
    obtain ⟨t, ht, hiff⟩ := Method.apply_shown hm hv hconstant
    refine ⟨t, ?_, hiff⟩
    rw [eval_call_singleton hw hu, ht]
  | comparison hcomparison => exact (hother rfl (Operator.textMethod_of_comparison hcomparison)).elim
  | membership hd => exact (hother hd rfl).elim
  | isEmpty hd => exact (hother hd rfl).elim
  | isNotEmpty hd => exact (hother hd rfl).elim

/-! ## The rows that are found -/

variable {o : Options} {id : Nat} {root : Ty} {path : String} {l : Lambda}

/-- **What filters for the start or a part of a text mean.** A filter that compiles has a constant, which
is null if the descriptor has no value, or if its value is the empty text where this stands for null. On a
row where the path reads a value of the property's type the filter answers. It finds the row exactly if
neither the value nor the constant is null, and the text of the value starts with the text of the
constant, or contains it. -/
theorem test_textMatch (hop : op.textMethod? = some m)
    (h : compile s o id root [⟨path, op, raw⟩] = .ok l) :
    ∃ property c, resolve s (.param (rootParam o id root)) path = .ok property ∧
      constantValue s raw property.ty = .ok c ∧
      (property.ty.Flat → (c = .null ↔
        raw = none ∨ raw = some "" ∧ property.ty.isNullable = true ∧ property.ty.isText = false)) ∧
      ∀ row v, row.readPath path = .ok v → v.Conforms s property.ty →
        ∃ b, l.test row = .ok b ∧
          (b = true ↔ v ≠ .null ∧ c ≠ .null ∧ op.FindsIn c.text v.text) := by
  have hnone : op ≠ .none := by
    rintro rfl
    cases hop
  rw [compile_singleton hnone] at h
  obtain ⟨e, he, rfl⟩ := map_eq_ok.1 h
  obtain ⟨property, hproperty, hasks⟩ := of_predicate_eq_ok he
  obtain ⟨c, hc, hrows⟩ := hasks.exists_textMatch hop
  refine ⟨property, c, hproperty, hc, fun hflat => constantValue_eq_null hflat hc, ?_⟩
  intro row v hv hconf
  have hread : property.eval (rootParam o id root) row = .ok v := (eval_resolve_param hproperty).trans hv
  obtain ⟨t, ht, hiff⟩ := hrows _ row v hread hconf
  refine ⟨t == some true, Lambda.test_of_eq_ok ht, ?_⟩
  rw [beq_iff_eq, hiff]

/-! ## Kinds of weather -/

/-- The name of one kind of weather starts with the name of another. -/
def forecast : Schema :=
  ⟨[⟨"Day", [⟨"Weather", .nullable (.enum "Weather")⟩]⟩],
    [⟨"Weather", [("rain", 1), ("rainbow", 2)]⟩]⟩

def dayWeather : Expr := .field (.param ⟨1, "x", .record "Day"⟩) "Weather" (.nullable (.enum "Weather"))

/-- The days with a weather whose name starts with the name of weather 1. -/
def rainy : Lambda :=
  ⟨⟨1, "x", .record "Day"⟩, .call .startsWith (.call .toText dayWeather [])
    [.call .toText (.convert (.literal (.enum ⟨1, some "rain"⟩) (.enum "Weather"))
      (.nullable (.enum "Weather"))) []]⟩

theorem compile_rainy :
    compile forecast {} 1 (.record "Day") [⟨"Weather", .startsWith, some "1"⟩] = .ok rainy := by rfl

theorem rainy_rainbow :
    compile forecast {} 1 (.record "Day") [⟨"Weather", .startsWith, some "1"⟩] = .ok rainy ∧
      rainy.test (.record [("Weather", .enum ⟨2, some "rainbow"⟩)]) = .ok true ∧
      rainy.test (.record []) = .ok false := by
  refine ⟨compile_rainy, ?_⟩
  have hop : Operator.startsWith.textMethod? = some .startsWith := rfl
  obtain ⟨property, c, hproperty, hc, -, hrows⟩ := test_textMatch hop compile_rainy
  have hweather : resolve forecast (.param (rootParam {} 1 (.record "Day"))) "Weather" =
      .ok dayWeather := rfl
  cases hweather.symm.trans hproperty
  have hrain : constantValue forecast (some "1") dayWeather.ty = .ok (.enum ⟨1, some "rain"⟩) := rfl
  cases hrain.symm.trans hc
  constructor
  · obtain ⟨b, hb, hfinds⟩ := hrows (.record [("Weather", .enum ⟨2, some "rainbow"⟩)])
      (.enum ⟨2, some "rainbow"⟩) rfl (.nullable (.enum _ _))
    have hprefix : Operator.startsWith.FindsIn (Value.enum ⟨1, some "rain"⟩).text
        (Value.enum ⟨2, some "rainbow"⟩).text := by
      refine (?_ : "rain".toList <+: "rainbow".toList)
      decide
    rw [hb, hfinds.2 ⟨nofun, nofun, hprefix⟩]
  · obtain ⟨b, hb, hfinds⟩ := hrows (.record []) .null rfl (.null _)
    have hnot : b ≠ true := fun htrue => (hfinds.1 htrue).1 rfl
    rw [hb, Bool.eq_false_iff.2 hnot]

end Filter

end RecordQuery
