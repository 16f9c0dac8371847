import RecordQuery.Proofs.Filter.Settlement
import RecordQuery.Proofs.Filter.TextMatch
import RecordQuery.Proofs.Schema.TypeNames

/-!
# Reading the text of a value again

The text of a scalar other than a float is read as the scalar again, if it tells all of it. Two things
may be left out: a moment is written without the part of a second, and a constant is written by its name,
which may stand for another ordinal.

* `DateTime.wholeSecond`, `Value.read_text_dateTime` : what the text of a moment is read as;
* `Constant.exists_read_iff` : the tokens that are read as a constant of a given ordinal;
* `Value.Tells` : the text of the value tells the value;
* `Value.read_text_iff` : which values are read again from their texts.
-/

namespace RecordQuery

/-! ## Moments -/

def DateTime.wholeSecond (t : DateTime) : DateTime :=
  ⟨t.date, { t.time with
    nanosecond := 0
    valid := ⟨t.time.valid.1, t.time.valid.2.1, t.time.valid.2.2.1, by decide⟩ }⟩

theorem DateTime.wholeSecond_eq_iff {t : DateTime} : t.wholeSecond = t ↔ t.time.nanosecond = 0 := by
  constructor
  · intro h
    rw [← h]
    rfl
  · intro h
    obtain ⟨date, hour, minute, second, nanosecond, valid⟩ := t
    cases h
    rfl

theorem Value.read_text_dateTime (s : Schema) (t : DateTime) :
    read s (text (.dateTime t)) .dateTime = .ok (.dateTime t.wholeSecond) :=
  @read_dateTime s t.wholeSecond rfl

/-! ## Constants -/

section Constants
variable {s : Schema} {name token raw : String} {e : EnumType} {c : Constant} {n : Int64}

/-- The tokens that denote an ordinal are those that are read as a constant of this ordinal. -/
theorem Constant.exists_read_iff (he : s.enumeration? name = some e) :
    (∃ d, read s name token = .ok d ∧ d.ordinal = n) ↔ e.Denotes token n := by
  constructor
  · rintro ⟨d, hread, hordinal⟩
    exact (denotes_iff_of_read he hread).2 hordinal
  · rintro (hinteger | ⟨hinteger, hname⟩)
    · exact ⟨_, read_of_ordinal token he hinteger, rfl⟩
    · exact ⟨_, read_of_name token he hinteger hname, rfl⟩

/-- A bare ordinal denotes itself, and a name should denote the ordinal of its constant. -/
theorem EnumType.denotes_text_iff :
    e.Denotes c.text c.ordinal ↔ ∀ k, c.name = some k → e.Denotes k c.ordinal := by
  unfold Constant.text
  cases c.name with
  | some k => simp
  | none =>
    refine iff_of_true (.integer ?_) nofun
    rw [Option.getD_none, Integer.trim_text, Integer.read?_text]

theorem Constant.denotes_of_read (he : s.enumeration? name = some e) (h : read s name raw = .ok c)
    (hraw : Integer.read? (Text.trim raw).toList = none) : e.Denotes c.text c.ordinal := by
  cases hordinal : e.ordinalOf? (Text.trim raw) with
  | none =>
    unfold read at h
    rw [Schema.enumeration_eq_ok.2 he, ok_bind] at h
    dsimp only at h
    rw [hraw] at h
    dsimp only at h
    rw [hordinal] at h
    cases h
  | some n =>
    rw [read_of_name raw he hraw hordinal] at h
    cases h
    have htrim : Text.trim (Text.trim raw) = Text.trim raw :=
      Text.trim_ofList (Text.isTrimmed_trimChars raw.toList)
    refine .name ?_ ?_
    · show Integer.read? (Text.trim (Text.trim raw)).toList = none
      rw [htrim, hraw]
    · show e.ordinalOf? (Text.trim (Text.trim raw)) = some n
      rw [htrim, hordinal]

theorem EnumType.IsLegible.denotes_text (hlegible : e.IsLegible) (hc : e.Has c) :
    e.Denotes c.text c.ordinal := by
  rw [denotes_text_iff]
  intro k hk
  cases hc with
  | @declared name ordinal hmem =>
    cases hk
    have htrim : Text.trim k = k := hlegible.trimmed (k, ordinal) hmem
    refine .name ?_ ?_
    · rw [htrim, hlegible.notInteger (k, ordinal) hmem]
    · rw [htrim, hlegible.ordinalOf?_eq_some hmem]
  | bare h => cases hk

end Constants

namespace Value
variable {s : Schema} {raw : String} {ty : Ty} {v w : Value}

/-! ## Values -/

/-- The text of the value tells the value: a moment is at the beginning of a second, and the name of a
constant denotes the ordinal of the constant. -/
def Tells (s : Schema) (ty : Ty) : Value → Prop
  | .dateTime t => t.time.nanosecond = 0
  | .enum c => ∀ name e k, ty = .enum name → s.enumeration? name = some e → c.name = some k →
      e.Denotes k c.ordinal
  | _ => True

theorem tells_enum_iff {name : String} {e : EnumType} {c : Constant}
    (he : s.enumeration? name = some e) :
    Tells s (.enum name) (.enum c) ↔ e.Denotes c.text c.ordinal := by
  rw [EnumType.denotes_text_iff]
  constructor
  · intro h k hk
    exact h name e k rfl he hk
  · intro h name' e' k hty he' hk
    cases hty
    cases he.symm.trans he'
    exact h k hk

theorem exists_constant_of_read {name : String} (h : read s raw (.enum name) = .ok v) :
    ∃ c, v = .enum c ∧ Constant.read s name raw = .ok c := by
  rw [read] at h
  obtain ⟨c, hc, rfl⟩ := map_eq_ok.1 h
  exact ⟨c, rfl, hc⟩

theorem read_text_enum_iff {name : String} {e : EnumType} {c : Constant}
    (he : s.enumeration? name = some e) :
    (∃ w, read s (text (.enum c)) (.enum name) = .ok w ∧ eqv (.enum c) w = true) ↔
      e.Denotes c.text c.ordinal := by
  rw [← Constant.exists_read_iff he]
  constructor
  · rintro ⟨w, hw, heqv⟩
    obtain ⟨d, rfl, hd⟩ := exists_constant_of_read hw
    rw [eqv, beq_iff_eq] at heqv
    exact ⟨d, hd, heqv.symm⟩
  · rintro ⟨d, hd, hordinal⟩
    refine ⟨.enum d, ?_, ?_⟩
    · rw [read, text, hd]
      rfl
    · rw [eqv, beq_iff_eq, hordinal]

theorem read_bool (b : Bool) : read s (text (.bool b)) .bool = .ok (.bool b) := by
  cases b <;> rfl

theorem read_int (n : Int64) : read s (text (.int n)) .int = .ok (.int n) := by
  have hread : Integer.read (Integer.chars n.toInt) = .ok n := Integer.read_chars n
  rw [read, text, Integer.text, String.toList_ofList,
    Text.trimChars_eq_self (Integer.isTrimmed_chars n.toInt), hread]

theorem isDeclared_of_read (hty : ty.isNullable = false) (h : read s raw ty = .ok v) :
    ty.IsDeclared s := by
  cases ty with
  | nullable inner => cases hty
  | enum name =>
    obtain ⟨c, -, hc⟩ := exists_constant_of_read h
    obtain ⟨e, he, -⟩ := Constant.has_of_read hc
    refine ⟨trivial, ?_⟩
    rw [Schema.checkTy, Schema.enumeration_eq_ok.2 he]
    rfl
  | record name => cases h
  | shape id => cases h
  | list elem => cases h
  | _ => exact ⟨trivial, rfl⟩

/-- Text is read from a document, and compiled to a constant, as it is read alone. -/
theorem ofJson_and_constant_of_read (hty : ty.isNullable = false) (h : read s raw ty = .ok v) :
    ofJson s ty (.string raw) = .ok v ∧ Filter.constant s (some raw) ty = .ok (.literal v ty) := by
  constructor
  · rw [ofJson, Ty.underlying_of_not_isNullable hty]
    cases ty with
    | list elem => cases h
    | _ => exact h
  · rw [Filter.constant_eq_map (isDeclared_of_read hty h)]
    show (read s raw ty).map (Filter.constantExpr · ty) = .ok (.literal v ty)
    rw [h, Except.map, Filter.constantExpr, hty, if_neg Bool.false_ne_true]

/-- Every value that is read is read again from its text, but for the moments and constants whose texts
do not tell them. -/
theorem exists_read_text_iff (hty : ty.isNullable = false) (hfloat : ty ≠ .float)
    (h : read s raw ty = .ok v) :
    (∃ w, read s v.text ty = .ok w ∧ v.eqv w = true) ↔ v.Tells s ty := by
  have hsame (hread : read s v.text ty = .ok v) (heqv : v.eqv v = true) (htells : v.Tells s ty) :
      (∃ w, read s v.text ty = .ok w ∧ v.eqv w = true) ↔ v.Tells s ty :=
    iff_of_true ⟨v, hread, heqv⟩ htells
  have hconf : v.Conforms s ty := conforms_of_read h
  have hnull : v ≠ .null := Filter.read_ne_null hty h
  cases ty with
  | nullable inner => cases hty
  | float => contradiction
  | enum name =>
    obtain ⟨c, rfl, hc⟩ := exists_constant_of_read h
    obtain ⟨e, he, -⟩ := Constant.has_of_read hc
    rw [read_text_enum_iff he, tells_enum_iff he]
  | dateTime =>
    cases hconf with
    | null => exact absurd rfl hnull
    | dateTime t =>
      rw [read_text_dateTime, Tells, ← DateTime.wholeSecond_eq_iff]
      constructor
      · rintro ⟨w, hw, heqv⟩
        cases hw
        rw [eqv, beq_iff_eq] at heqv
        exact heqv.symm
      · intro hwhole
        refine ⟨_, rfl, ?_⟩
        rw [eqv, beq_iff_eq, hwhole]
  | bool =>
    cases hconf with
    | null => exact absurd rfl hnull
    | bool b => exact hsame (read_bool b) (by simp [eqv]) trivial
  | int =>
    cases hconf with
    | null => exact absurd rfl hnull
    | int n => exact hsame (read_int n) (by simp [eqv]) trivial
  | string =>
    cases h
    exact hsame rfl (by simp [eqv]) trivial
  | uuid =>
    cases hconf with
    | null => exact absurd rfl hnull
    | uuid u => exact hsame (read_uuid u) (by simp [eqv]) trivial
  | date =>
    cases hconf with
    | null => exact absurd rfl hnull
    | date d => exact hsame (read_date d) (by simp [eqv]) trivial
  | record name => cases h
  | shape id => cases h
  | list elem => cases h

/-- **The text of a value is read as the value again exactly if it tells the value**, and it is then the
value in a document and in a filter as well. A moment is always read as the beginning of its second.
Constants tell what they are if they were read by name, or if their enumeration is legible. -/
theorem read_text_iff (hty : ty.isNullable = false) (hfloat : ty ≠ .float)
    (h : read s raw ty = .ok v) :
    ((∃ w, read s v.text ty = .ok w ∧ v.eqv w = true) ↔ v.Tells s ty) ∧
      (∀ w, read s v.text ty = .ok w → ofJson s ty (.string v.text) = .ok w ∧
        Filter.constant s (some v.text) ty = .ok (.literal w ty)) ∧
      (∀ t, v = .dateTime t → ty = .dateTime ∧
        read s v.text ty = .ok (.dateTime t.wholeSecond)) ∧
      ∀ name e, ty = .enum name → s.enumeration? name = some e →
        e.IsLegible ∨ Integer.read? (Text.trim raw).toList = none → v.Tells s ty := by
  refine ⟨exists_read_text_iff hty hfloat h, fun w => ofJson_and_constant_of_read hty, ?_, ?_⟩
  · rintro t rfl
    have hconf : (Value.dateTime t).Conforms s ty := conforms_of_read h
    cases hconf with
    | dateTime => exact ⟨rfl, read_text_dateTime s t⟩
    | nullable => cases hty
  · rintro name e rfl he hname
    obtain ⟨c, rfl, hc⟩ := exists_constant_of_read h
    rw [tells_enum_iff he]
    rcases hname with hlegible | hraw
    · obtain ⟨e', he', hhas⟩ := Constant.has_of_read hc
      cases he.symm.trans he'
      exact hlegible.denotes_text hhas
    · exact Constant.denotes_of_read he hc hraw

/-- Marks with a name that is a number, a name that is declared again, and a name with blanks. -/
def marks : Schema :=
  ⟨[], [⟨"Mark", [("1", 5), ("fair", 1), ("fair", 2), (" good ", 3), ("best", 4)]⟩]⟩

theorem read_text_best : ∃ w, read marks (text (.enum ⟨4, some "best"⟩)) (.enum "Mark") = .ok w ∧
    eqv (.enum ⟨4, some "best"⟩) w = true := by
  have hread : read marks "best" (.enum "Mark") = .ok (.enum ⟨4, some "best"⟩) := rfl
  obtain ⟨hiff, -, -, htells⟩ := read_text_iff rfl (by decide) hread
  exact hiff.2 (htells "Mark" _ rfl rfl (.inr (by decide)))

def halfPast : DateTime := ⟨⟨2024, 2, 29, by decide⟩, ⟨10, 30, 0, 500000000, by decide⟩⟩

theorem read_halfPast : read marks "2024-02-29T10:30:00.5Z" .dateTime = .ok (.dateTime halfPast) := by
  have hread : DateTime.read (Text.trimChars "2024-02-29T10:30:00.5Z".toList) = .ok halfPast := by
    decide +kernel
  rw [read, hread]

/-- Half a second is lost, and so are some marks: the text of the mark 5 is another ordinal, the text of
2 names another constant first, and the text of 3 is not read at all. -/
theorem text_tells_less :
    (read marks "2024-02-29T10:30:00.5Z" .dateTime = .ok (.dateTime halfPast) ∧
      read marks (text (.dateTime halfPast)) .dateTime = .ok (.dateTime halfPast.wholeSecond) ∧
      halfPast.wholeSecond ≠ halfPast) ∧
    (read marks "5" (.enum "Mark") = .ok (.enum ⟨5, some "1"⟩) ∧
      read marks (text (.enum ⟨5, some "1"⟩)) (.enum "Mark") = .ok (.enum ⟨1, some "fair"⟩)) ∧
    (read marks "2" (.enum "Mark") = .ok (.enum ⟨2, some "fair"⟩) ∧
      read marks (text (.enum ⟨2, some "fair"⟩)) (.enum "Mark") = .ok (.enum ⟨1, some "fair"⟩)) ∧
    read marks "3" (.enum "Mark") = .ok (.enum ⟨3, some " good "⟩) ∧
      (read marks (text (.enum ⟨3, some " good "⟩)) (.enum "Mark")).toOption = none :=
  ⟨⟨read_halfPast, read_text_dateTime _ _, by decide⟩, ⟨rfl, rfl⟩, ⟨rfl, rfl⟩, rfl, rfl⟩

end Value

end RecordQuery
