import RecordQuery.Proofs.Value.Reading
import RecordQuery.Schema.Document

/-!
# What a loaded catalog declares

A document is loaded in two passes. The first one declares all names, and the second one reads the field
types in the catalog of these names. No later declaration takes a name away, so what is read in the
second pass stays declared.

* `Schema.Extends` : one catalog declares all names of another;
* `checkTy_of_extends`, `IsDeclared.of_extends` : a declared type stays declared;
* `Ty.isDeclared_of_readChars` : every type that is read is declared;
* `Schema.HasFieldsIn` : the field types of a catalog are declared in another one, which each declaration
  of a record keeps (`hasFieldsIn_foldl_addRecord`);
* `Schema.hasFieldsIn_of_read` : the field types of a loaded catalog are declared in it;
* `HasFieldsIn.validate`, `HasFieldsIn.flat` : it is valid, and has no nested nullable types.
-/

namespace RecordQuery

namespace Schema
variable {s t u : Schema} {ty : Ty}

/-! ## Declared names -/

/-- The second catalog declares all names that the first one declares. -/
structure Extends (s t : Schema) : Prop where
  record : ∀ name, s.record? name ≠ none → t.record? name ≠ none
  enumeration : ∀ name, s.enumeration? name ≠ none → t.enumeration? name ≠ none

theorem Extends.refl (s : Schema) : s.Extends s := ⟨fun _ h => h, fun _ h => h⟩

theorem Extends.trans (h : s.Extends t) (h' : t.Extends u) : s.Extends u :=
  ⟨fun name hname => h'.record name (h.record name hname),
    fun name hname => h'.enumeration name (h.enumeration name hname)⟩

theorem record?_eq_none_iff {name : String} :
    s.record? name = none ↔ ∀ r ∈ s.records, r.name ≠ name := by
  simp [record?]

/-- A declaration replaces another one of its name, and leaves the other names alone. -/
theorem extends_addRecord (s : Schema) (r : RecordType) : s.Extends (s.addRecord r) := by
  refine ⟨fun name hname => ?_, fun name hname => hname⟩
  intro hnone
  apply hname
  rw [record?_eq_none_iff] at hnone ⊢
  intro r' hr' heq
  by_cases hr : r'.name = r.name
  · exact hnone r (List.mem_append_right _ (List.mem_singleton_self r)) (hr.symm.trans heq)
  · have hmem : r' ∈ s.records.filter (·.name != r.name) := List.mem_filter.2 ⟨hr', by simp [hr]⟩
    exact hnone r' (List.mem_append_left _ hmem) heq

theorem extends_foldl_addRecord (rs : List RecordType) (s : Schema) :
    s.Extends (rs.foldl addRecord s) := by
  induction rs generalizing s with
  | nil => exact .refl s
  | cons r rs ih => exact (extends_addRecord s r).trans (ih (s.addRecord r))

theorem checkTy_record {name : String} : s.checkTy (.record name) = .ok () ↔ s.record? name ≠ none := by
  rw [checkTy, record]
  cases s.record? name <;> simp [Except.map]

theorem checkTy_enum {name : String} :
    s.checkTy (.enum name) = .ok () ↔ s.enumeration? name ≠ none := by
  rw [checkTy, enumeration]
  cases s.enumeration? name <;> simp [Except.map]

theorem checkTy_of_extends (h : s.Extends t) (hty : s.checkTy ty = .ok ()) :
    t.checkTy ty = .ok () := by
  induction ty with
  | record name => exact checkTy_record.2 (h.record name (checkTy_record.1 hty))
  | enum name => exact checkTy_enum.2 (h.enumeration name (checkTy_enum.1 hty))
  | list inner ih => exact ih hty
  | nullable inner ih => exact ih hty
  | _ => rfl

end Schema

/-! ## Types that are read -/

namespace Ty
variable {s t : Schema} {ty : Ty}

theorem IsDeclared.of_extends (h : s.Extends t) (hty : ty.IsDeclared s) : ty.IsDeclared t :=
  ⟨hty.flat, Schema.checkTy_of_extends h hty.checked⟩

theorem IsDeclared.orNull (h : ty.IsDeclared s) : ty.orNull.IsDeclared s := by
  cases ty with
  | nullable inner => exact h
  | _ => exact ⟨⟨rfl, h.flat⟩, h.checked⟩

theorem isDeclared_of_readAtom {name : String} (h : readAtom s name = .ok ty) : ty.IsDeclared s := by
  unfold readAtom at h
  split at h
  case h_8 =>
    split at h
    · rename_i hrecord
      cases h
      exact ⟨trivial, Schema.checkTy_record.2 (Option.isSome_iff_ne_none.1 hrecord)⟩
    split at h
    · rename_i henum
      cases h
      exact ⟨trivial, Schema.checkTy_enum.2 (Option.isSome_iff_ne_none.1 henum)⟩
    · cases h
  all_goals
    cases h
    exact ⟨trivial, rfl⟩

/-- **Every type that is read is declared**, and nests no nullable types. -/
theorem isDeclared_of_readChars {cs : List Char} (h : readChars s cs = .ok ty) : ty.IsDeclared s := by
  fun_induction readChars s cs generalizing ty with
  | case1 =>
    rename_i ih
    obtain ⟨inner, hinner, rfl⟩ := map_eq_ok.1 h
    exact (ih hinner).orNull
  | case2 =>
    rename_i ih
    obtain ⟨inner, hinner, rfl⟩ := map_eq_ok.1 h
    exact ⟨(ih hinner).flat, (ih hinner).checked⟩
  | case3 => exact isDeclared_of_readAtom h

end Ty

/-! ## Catalogs that are read -/

namespace Schema
variable {s t : Schema} {d : Document}

/-- The field types of the second catalog are declared in the first one. -/
def HasFieldsIn (s t : Schema) : Prop := ∀ r ∈ t.records, ∀ f ∈ r.fields, f.ty.IsDeclared s

theorem hasFieldsIn_addRecord {r : RecordType} (hr : ∀ f ∈ r.fields, f.ty.IsDeclared s)
    (h : s.HasFieldsIn t) : s.HasFieldsIn (t.addRecord r) := by
  intro r' hr'
  rcases List.mem_append.1 hr' with hmem | hmem
  · exact h r' (List.mem_filter.1 hmem).1
  · rw [List.mem_singleton.1 hmem]
    exact hr

theorem hasFieldsIn_foldl_addRecord {rs : List RecordType}
    (hrs : ∀ r ∈ rs, ∀ f ∈ r.fields, f.ty.IsDeclared s) (h : s.HasFieldsIn t) :
    s.HasFieldsIn (rs.foldl addRecord t) := by
  induction rs generalizing t with
  | nil => exact h
  | cons r rs ih =>
    obtain ⟨hr, hrs⟩ := List.forall_mem_cons.1 hrs
    exact ih hrs (hasFieldsIn_addRecord hr h)

theorem records_foldl_addEnum (es : List EnumType) (s : Schema) :
    (es.foldl addEnum s).records = s.records := by
  induction es generalizing s with
  | nil => rfl
  | cons e es ih => rw [List.foldl_cons, ih]; rfl

theorem Document.hasFieldsIn_names (s : Schema) (d : Document) : s.HasFieldsIn d.names := by
  have hrecords : d.names.records =
      ((d.records.map fun r => RecordType.mk r.name []).foldl addRecord empty).records := by
    rw [Document.names, records_foldl_addEnum, List.foldl_map]
  have hempty : ∀ r ∈ d.records.map fun r => RecordType.mk r.name [], ∀ f ∈ r.fields,
      f.ty.IsDeclared s := by
    simp
  unfold HasFieldsIn
  rw [hrecords]
  exact hasFieldsIn_foldl_addRecord hempty nofun

theorem Document.isDeclared_of_readRecord {draft : RecordDraft} {r : RecordType}
    (h : readRecord s draft = .ok r) : ∀ f ∈ r.fields, f.ty.IsDeclared s := by
  obtain ⟨fields, hfields, h⟩ := bind_eq_ok.1 h
  cases h
  intro f hf
  obtain ⟨x, hx⟩ := exists_of_forall₂ (mapM_eq_ok.1 hfields).flip hf
  obtain ⟨ty, hty, hfield⟩ := bind_eq_ok.1 hx
  cases hfield
  exact Ty.isDeclared_of_readChars hty

theorem hasFieldsIn_of_ofDocument (h : ofDocument d = .ok s) : s.HasFieldsIn s := by
  obtain ⟨records, hrecords, h⟩ := bind_eq_ok.1 h
  cases h
  have hread : ∀ r ∈ records, ∀ f ∈ r.fields, f.ty.IsDeclared d.names := fun r hr => by
    obtain ⟨draft, hdraft⟩ := exists_of_forall₂ (mapM_eq_ok.1 hrecords).flip hr
    exact Document.isDeclared_of_readRecord hdraft
  -- The types are declared in the catalog of the names, and the final catalog declares all of these.
  have hnames := hasFieldsIn_foldl_addRecord hread (Document.hasFieldsIn_names d.names d)
  exact fun r hr f hf => (hnames r hr f hf).of_extends (extends_foldl_addRecord records d.names)

/-- **The field types of a loaded catalog are declared in it.** -/
theorem hasFieldsIn_of_read {text : String} (h : read text = .ok s) : s.HasFieldsIn s := by
  unfold read at h
  split at h
  · exact hasFieldsIn_of_ofDocument h
  · cases h

theorem HasFieldsIn.validate (h : s.HasFieldsIn s) : s.validate = .ok () :=
  forM_eq_ok.2 fun r hr => forM_eq_ok.2 fun f hf => (h r hr f hf).checked

theorem HasFieldsIn.flat (h : s.HasFieldsIn s) : ∀ r ∈ s.records, ∀ f ∈ r.fields, f.ty.Flat :=
  fun r hr f hf => (h r hr f hf).flat

end Schema

end RecordQuery
