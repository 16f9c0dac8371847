import RecordQuery.Expr.Eval
import RecordQuery.Proofs.Outcome
import RecordQuery.Schema.Basic

/-!
# Values that belong to a type

* `Value.Conforms s v ty` : the value belongs to the type, as the catalog `s` declares it; null
  belongs to every type, and a nullable type has the values of the type inside;
* `conforms_underlying`, `Conforms.of_equatable` : nullable wrappers do not matter;
* `Conforms.readField` : a declared field of a record is read, and its value belongs to its type;
* `Conforms.compare` : values of an orderable type are ordered, unless they are floats that are not.

A record may have other fields than the declared ones, and may lack some of these.
-/

namespace RecordQuery

/-! ## Record types -/

theorem Ty.underlying_of_recordName {ty : Ty} {name : String} (h : ty.recordName? = some name) :
    ty.underlying = .record name := by
  unfold recordName? at h
  split at h <;> simp_all

theorem RecordType.name_of_field? {r : RecordType} {name : String} {f : Field}
    (h : r.field? name = some f) : f.name = name := by
  simpa using List.find?_some h

/-! ## Values of a type -/

inductive Value.Conforms (s : Schema) : Value → Ty → Prop
  | null (ty : Ty) : Conforms s .null ty
  | bool (b : Bool) : Conforms s (.bool b) .bool
  | int (n : Int64) : Conforms s (.int n) .int
  | float (x : Binary64) : Conforms s (.float x) .float
  | string (t : String) : Conforms s (.string t) .string
  | uuid (u : Uuid) : Conforms s (.uuid u) .uuid
  | date (d : Date) : Conforms s (.date d) .date
  | dateTime (t : DateTime) : Conforms s (.dateTime t) .dateTime
  | enum (c : Constant) (name : String) : Conforms s (.enum c) (.enum name)
  | list {items : List Value} {elem : Ty} (h : ∀ v ∈ items, Conforms s v elem) :
      Conforms s (.list items) (.list elem)
  /-- Declared fields that are present have values of their types. -/
  | record {fields : List (String × Value)} {name : String}
      (h : ∀ r, s.record? name = some r → ∀ f ∈ r.fields, ∀ v, Value.get? fields f.name = some v →
        Conforms s v f.ty) : Conforms s (.record fields) (.record name)
  /-- The values of an instance belong to the types of its fields, one by one. -/
  | shape {shape : Shape} {values : List Value} (length : values.length = shape.fields.length)
      (h : ∀ (i : Nat) (v : Value) (f : Field), values[i]? = some v → shape.fields[i]? = some f →
        Conforms s v f.ty) :
      Conforms s (.shape shape values) (.shape shape.id)
  | nullable {v : Value} {inner : Ty} (h : Conforms s v inner) : Conforms s v (.nullable inner)

namespace Value
variable {s : Schema}

/-! ## Nullable wrappers -/

theorem conforms_nullable {v : Value} {inner : Ty} :
    v.Conforms s (.nullable inner) ↔ v.Conforms s inner := by
  constructor
  · intro h
    cases h with
    | null => exact .null inner
    | nullable h => exact h
  · exact .nullable

theorem conforms_underlying {v : Value} {ty : Ty} : v.Conforms s ty.underlying ↔ v.Conforms s ty := by
  cases ty <;> first | rfl | exact conforms_nullable.symm

theorem Conforms.of_equatable {v : Value} {a b : Ty} (h : v.Conforms s a) (hab : a.equatable b) :
    v.Conforms s b := by
  rw [← conforms_underlying] at h ⊢
  rwa [← eq_of_beq hab]

theorem Conforms.of_underlying_eq {v : Value} {ty inner : Ty} (h : v.Conforms s ty)
    (hty : ty.underlying = inner) : v.Conforms s inner := by
  rwa [← hty, conforms_underlying]

/-! ## Truth values -/

theorem Conforms.truth {v : Value} (h : v.Conforms s .bool) : ∃ t, v.truth = .ok t := by
  cases h with
  | null => exact ⟨none, rfl⟩
  | bool b => exact ⟨some b, rfl⟩

theorem conforms_ofTruth (t : Option Bool) : (ofTruth t).Conforms s .bool := by
  cases t with
  | none => exact .null .bool
  | some b => exact .bool b

/-! ## Fields -/

/-- A declared field of a record type is read, and its value belongs to its type. -/
theorem Conforms.readField {v : Value} {name : String} {r : RecordType} {f : Field}
    (h : v.Conforms s (.record name)) (hr : s.record? name = some r) (hf : f ∈ r.fields) :
    ∃ w, v.readField f.name = .ok w ∧ w.Conforms s f.ty := by
  cases h with
  | null => exact ⟨.null, rfl, .null f.ty⟩
  | @record fields _ h =>
    refine ⟨_, rfl, ?_⟩
    cases hv : get? fields f.name with
    | none => exact .null f.ty
    | some v => exact h r hr f hf v hv

/-- A record with values of the declared types; an absent field counts as null. -/
theorem conforms_record {fields : List (String × Value)} {name : String} {r : RecordType}
    (hr : s.record? name = some r)
    (h : ∀ f ∈ r.fields, ((get? fields f.name).getD .null).Conforms s f.ty) :
    (Value.record fields).Conforms s (.record name) := by
  refine .record fun r' hr' f hf v hv => ?_
  cases Option.some.inj (hr.symm.trans hr')
  have hf' := h f hf
  rwa [hv] at hf'

/-! ## Order -/

theorem underlying_of_isOrderable {ty : Ty} (h : ty.isOrderable) :
    ty.underlying = .int ∨ ty.underlying = .float ∨ ty.underlying = .string ∨
      ty.underlying = .date ∨ ty.underlying = .dateTime := by
  unfold Ty.isOrderable at h
  split at h <;> simp_all

/-- Two values of an orderable type are ordered, unless one is null or they are unordered floats. -/
theorem Conforms.compare {a b : Value} {ty : Ty} (ha : a.Conforms s ty) (hb : b.Conforms s ty)
    (hty : ty.isOrderable) :
    a = .null ∨ b = .null ∨ (∃ o, a.compare b = some o) ∨
      ∃ x y, a = .float x ∧ b = .float y ∧ x.compare y = none := by
  rcases underlying_of_isOrderable hty with hu | hu | hu | hu | hu
  case inr.inl =>
    cases ha.of_underlying_eq hu with
    | null => exact .inl rfl
    | float x =>
      cases hb.of_underlying_eq hu with
      | null => exact .inr (.inl rfl)
      | float y =>
        cases h : x.compare y with
        | none => exact .inr (.inr (.inr ⟨x, y, rfl, rfl, h⟩))
        | some o => exact .inr (.inr (.inl ⟨o, h⟩))
  all_goals
    cases ha.of_underlying_eq hu with
    | null => exact .inl rfl
    | _ =>
      cases hb.of_underlying_eq hu with
      | null => exact .inr (.inl rfl)
      | _ => exact .inr (.inr (.inl ⟨_, rfl⟩))

end Value

/-! ## Instances of shapes -/

theorem Shape.conforms_construct {s : Schema} {shape : Shape} {values : List Value}
    (h : List.Forall₂ (fun f v => v.Conforms s f.ty) shape.fields values) :
    ∃ v, shape.construct values = .ok v ∧ v.Conforms s shape.ty := by
  have hlen : values.length = shape.fields.length := h.length_eq.symm
  refine ⟨.shape shape values, if_pos hlen, .shape hlen fun i v f hv hf => ?_⟩
  obtain ⟨hi, rfl⟩ := List.getElem?_eq_some_iff.1 hv
  obtain ⟨hi', rfl⟩ := List.getElem?_eq_some_iff.1 hf
  exact (List.forall₂_iff_get.1 h).2 i hi' hi

end RecordQuery
