import RecordQuery.Expr.Build
import RecordQuery.Proofs.Value.Reloading

/-!
# Texts that are read, or not

What can come of reading a text as a value of a type that a catalog declares.

* `Ty.IsDeclared` : the type is flat, and the catalog declares the names in it;
* `Schema.isDeclared_field` : the fields of a valid catalog have declared types;
* `BeyondCalendar` : the text names a moment beyond the calendar;
* `Value.read_yields` : a text is read as a literal of the type, or it does not convert, or it names a
  moment beyond the calendar;
* `Value.read_of_beyondCalendar` : the error for such a moment.
-/

namespace RecordQuery

/-! ## Declared types -/

/-- The type has no nullable type directly inside another, and names declared types only. -/
structure Ty.IsDeclared (s : Schema) (ty : Ty) : Prop where
  flat : ty.Flat
  checked : s.checkTy ty = .ok ()

namespace Ty.IsDeclared
variable {s : Schema} {ty : Ty} {name : String}

theorem not_isNullable_underlying (h : ty.IsDeclared s) : ty.underlying.isNullable = false := by
  cases ty with
  | nullable inner => exact h.flat.1
  | _ => rfl

theorem underlying (h : ty.IsDeclared s) : ty.underlying.IsDeclared s := by
  cases ty with
  | nullable inner => exact ⟨h.flat.2, h.checked⟩
  | _ => exact h

theorem exists_record (h : ty.IsDeclared s) (hname : ty.recordName? = some name) :
    s.record? name ≠ none := by
  have hty := h.underlying.checked
  rw [underlying_of_recordName hname, Schema.checkTy, Schema.record] at hty
  intro hnone
  rw [hnone] at hty
  cases hty

theorem exists_enumeration (h : ty.IsDeclared s) (hname : ty.underlying = .enum name) :
    ∃ e, s.enumeration? name = some e := by
  have hty := h.underlying.checked
  rw [hname, Schema.checkTy] at hty
  obtain ⟨e, he, -⟩ := map_eq_ok.1 hty
  exact ⟨e, Schema.enumeration_eq_ok.1 he⟩

theorem of_recordName (hname : ty.recordName? = some name) (h : s.record? name ≠ none) :
    ty.IsDeclared s := by
  obtain ⟨r, hr⟩ := Option.ne_none_iff_exists'.1 h
  have hunderlying : ty.underlying = .record name := underlying_of_recordName hname
  have hchecked : s.checkTy (.record name) = .ok () := by
    rw [Schema.checkTy, Schema.record, hr]
    rfl
  cases ty with
  | nullable inner =>
    cases (show inner = .record name from hunderlying)
    exact ⟨⟨rfl, trivial⟩, hchecked⟩
  | record other =>
    cases hunderlying
    exact ⟨trivial, hchecked⟩
  | _ => cases hunderlying

end Ty.IsDeclared

/-- A catalog without nested nullable types that is valid gives its fields declared types. -/
theorem Schema.isDeclared_field {s : Schema} (hs : s.validate = .ok ())
    (hflat : ∀ r ∈ s.records, ∀ f ∈ r.fields, f.ty.Flat) {r : RecordType} {f : Field}
    (hr : r ∈ s.records) (hf : f ∈ r.fields) : f.ty.IsDeclared s :=
  ⟨hflat r hr f hf, forM_eq_ok.1 (forM_eq_ok.1 hs r hr) f hf⟩

/-! ## Reading values -/

/-- The text names a moment beyond the calendar, where the type asks for a moment. -/
def BeyondCalendar (raw : String) (ty : Ty) : Prop :=
  ty.underlying = .dateTime ∧ DateTime.read (Text.trim raw).toList = .error .beyondCalendar

section Reading
variable {s : Schema} {raw name : String} {ty : Ty}

theorem Constant.read_yields (hname : ∃ e, s.enumeration? name = some e) :
    Yields (fun _ : Constant => True) (fun err => err.code = "ValueConversion") (read s name raw) := by
  obtain ⟨e, he⟩ := hname
  unfold read
  rw [Schema.enumeration_eq_ok.2 he, ok_bind]
  dsimp only
  split
  · exact trivial
  · split
    · exact trivial
    · exact rfl

namespace Value

theorem read_nullable (s : Schema) (raw : String) (inner : Ty) : read s raw (.nullable inner) =
    if raw.isEmpty && !inner.isText then .ok .null else read s raw inner := by rw [read]

/-- A text is read as a value of the type, or it does not convert, or it names a moment beyond the
calendar. -/
theorem read_yields (hty : ty.IsDeclared s) : Yields (fun v : Value => v.fits ty.underlying)
    (fun err => err.code = "ValueConversion" ∨ err = .beyondCalendar ∧ BeyondCalendar raw ty)
    (read s raw ty) := by
  induction ty with
  | nullable inner ih =>
    have hinner : inner.underlying = inner :=
      Ty.underlying_of_not_isNullable hty.not_isNullable_underlying
    rw [read_nullable]
    split
    · exact (show Value.null.fits inner = true by rw [fits])
    · refine (ih hty.underlying).mono (fun v hv => ?_) (fun err herr => ?_)
      · rwa [hinner] at hv
      · unfold BeyondCalendar at herr ⊢
        rwa [hinner] at herr
  | bool =>
    rw [read]
    cases Text.sameLetters (Text.trim raw) "true" with
    | true => exact rfl
    | false =>
      cases Text.sameLetters (Text.trim raw) "false" with
      | true => exact rfl
      | false => exact .inl rfl
  | int =>
    rw [read]
    cases Integer.read (Text.trimChars raw.toList) with
    | ok n => exact rfl
    | error fault => exact .inl rfl
  | float =>
    rw [read]
    cases Binary64.read (Text.trimChars raw.toList) with
    | ok x => exact rfl
    | error fault => exact .inl rfl
  | uuid =>
    rw [read]
    cases Uuid.read (Text.trimChars raw.toList) with
    | ok u => exact rfl
    | error fault => exact .inl rfl
  | date =>
    rw [read]
    cases Date.read? (Text.trimChars raw.toList) with
    | some d => exact rfl
    | none => exact .inl rfl
  | dateTime =>
    have hchars : (Text.trim raw).toList = Text.trimChars raw.toList := by
      rw [Text.trim, String.toList_ofList]
    rw [read]
    split
    · exact rfl
    · exact .inl rfl
    · rename_i hbeyond
      exact .inr ⟨rfl, rfl, hchars ▸ hbeyond⟩
  | enum name =>
    rw [read]
    cases hread : Constant.read s name raw with
    | ok c => exact rfl
    | error err => exact .inl ((Constant.read_yields (hty.exists_enumeration rfl)).of_eq_error hread)
  | string => exact rfl
  | record | shape | list => exact .inl rfl

theorem read_of_beyondCalendar (hty : ty.IsDeclared s) (h : BeyondCalendar raw ty) :
    read s raw ty = .error .beyondCalendar := by
  obtain ⟨hmoment, hbeyond⟩ := h
  have hread : read s raw .dateTime = .error .beyondCalendar := by
    rw [Text.trim, String.toList_ofList] at hbeyond
    rw [read, hbeyond]
  cases ty with
  | dateTime => exact hread
  | nullable inner =>
    cases (show inner = .dateTime from hmoment)
    have hraw : raw.isEmpty = false := by
      refine Bool.eq_false_iff.2 fun hempty => ?_
      cases String.isEmpty_iff.1 hempty
      cases hbeyond
    rw [read_nullable, hraw]
    exact hread
  | _ => cases hmoment

end Value

end Reading

end RecordQuery
