import RecordQuery.Proofs.Lookup
import RecordQuery.Proofs.Value.Conformance
import RecordQuery.Value.Json

/-!
# Values that were loaded

A value that text or JSON was read as belongs to the type that was asked for. In a record type that
declares a name more than once, the loader reads the field for each declaration and keeps the last.

* `Value.conforms_of_read` : values from text;
* `Json.induction`, `ofItems_eq_mapM`, `ofEntry_eq` : the loader on lists and objects;
* `Value.Loads`, `ofJson_eq_ok` : the rules by which the loader gives a value;
* `lastNamed?`, `Schema.settled` : the catalog in which only the last declaration of a field
  counts;
* `get?_of_foldlM` : the fields of a record that was loaded;
* `Value.conforms_of_ofJson` : values from JSON, in the settled catalog.
-/

namespace RecordQuery

/-! ## Values from text -/

namespace Value

/-- Text is read as a value of the type; what records are declared does not matter. -/
theorem conforms_of_read {s s' : Schema} {raw : String} {ty : Ty} {v : Value}
    (h : read s raw ty = .ok v) : v.Conforms s' ty := by
  induction ty generalizing v with
  | nullable inner ih =>
    rw [read] at h
    split at h
    · cases h
      exact .null _
    · exact .nullable (ih h)
  | string =>
    cases h
    exact .string raw
  | bool =>
    rw [read] at h
    split at h
    · cases h
      exact .bool true
    · split at h
      · cases h
        exact .bool false
      · cases h
  | int | float | uuid | date =>
    rw [read] at h
    split at h
    · cases h
      constructor
    · cases h
  | dateTime =>
    rw [read] at h
    split at h
    · cases h
      exact .dateTime _
    · cases h
    · cases h
  | enum name =>
    rw [read] at h
    obtain ⟨c, -, rfl⟩ := map_eq_ok.1 h
    exact .enum c name
  | record name => cases h
  | shape id => cases h
  | list elem => cases h

end Value

/-! ## The loader on lists and objects -/

/-- Induction on JSON values; the items of an array and the entries of an object have the property. -/
@[elab_as_elim]
theorem Json.induction {motive : Json → Prop} (null : motive .null) (bool : ∀ b, motive (.bool b))
    (number : ∀ n, motive (.number n)) (string : ∀ s, motive (.string s))
    (array : ∀ items, (∀ j ∈ items, motive j) → motive (.array items))
    (object : ∀ entries, (∀ x ∈ entries, motive x.2) → motive (.object entries)) (j : Json) :
    motive j :=
  @Json.rec motive (fun items => ∀ j ∈ items, motive j) (fun entries => ∀ x ∈ entries, motive x.2)
    (fun x => motive x.2) null bool number string array object (fun _ h => nomatch h)
    (fun _ _ hj hitems => List.forall_mem_cons.2 ⟨hj, hitems⟩) (fun _ h => nomatch h)
    (fun _ _ hx hentries => List.forall_mem_cons.2 ⟨hx, hentries⟩) (fun _ _ hj => hj) j

theorem Schema.record_eq_ok {s : Schema} {name : String} {r : RecordType} :
    s.record name = .ok r ↔ s.record? name = some r := by
  unfold record
  cases s.record? name <;> simp

namespace Value
variable {s : Schema}

theorem ofItems_eq_mapM (s : Schema) (elem : Ty) (items : List Json) :
    ofItems s elem items = items.mapM (ofJson s elem) := by
  induction items with
  | nil => rfl
  | cons item items ih => rw [ofItems, List.mapM_cons, ih]

theorem ofEntry_eq (s : Schema) (f : Field) (entries : List (String × Json)) :
    ofEntry s f entries = (entries.lookup f.name).elim (.ok .null) (ofJson s f.ty) := by
  induction entries with
  | nil => rfl
  | cons x entries ih =>
    rw [ofEntry, lookup_cons_eq_ite]
    by_cases hx : x.1 = f.name
    · rw [if_pos hx, if_pos hx.symm]
      rfl
    · rw [if_neg hx, if_neg (Ne.symm hx), ih]

theorem eq_null_or_of_ofEntry {f : Field} {entries : List (String × Json)} {v : Value}
    (h : ofEntry s f entries = .ok v) :
    v = .null ∨ ∃ x ∈ entries, ofJson s f.ty x.2 = .ok v := by
  rw [ofEntry_eq] at h
  cases hentry : entries.lookup f.name with
  | none =>
    rw [hentry] at h
    cases h
    exact .inl rfl
  | some j =>
    rw [hentry] at h
    obtain ⟨before, after, rfl, -⟩ := List.lookup_eq_some_iff.1 hentry
    exact .inr ⟨(f.name, j), List.mem_append_right before List.mem_cons_self, h⟩

/-- What the loader accepts for a type without its nullable wrapper, and the value that it gives. -/
inductive Loads (s : Schema) : Ty → Json → Value → Prop
  | null (ty : Ty) : Loads s ty .null .null
  | bool (b : Bool) : Loads s .bool (.bool b) (.bool b)
  | int {n : Json.Number} {i : Int64} (h : n.int64? = some i) : Loads s .int (.number n) (.int i)
  | float (n : Json.Number) : Loads s .float (.number n) (.float n.toFloat)
  | ordinal {name : String} {n : Json.Number} {i : Int64} {c : Constant} (hn : n.int64? = some i)
      (h : Constant.read s name (Integer.text i) = .ok c) : Loads s (.enum name) (.number n) (.enum c)
  | text {ty : Ty} {text : String} {v : Value} (hty : ∀ elem, ty ≠ .list elem)
      (h : read s text ty = .ok v) : Loads s ty (.string text) v
  | list {elem : Ty} {items : List Json} {vs : List Value}
      (h : List.Forall₂ (fun item v => ofJson s elem item = .ok v) items vs) :
      Loads s (.list elem) (.array items) (.list vs)
  | record {name : String} {r : RecordType} {entries : List (String × Json)}
      {fields : List (String × Value)} (hr : s.record? name = some r)
      (h : r.fields.foldlM
        (fun fields f => do return insert f.name (← ofEntry s f entries) fields) [] = .ok fields) :
      Loads s (.record name) (.object entries) (.record fields)

theorem loads_of_ofJson {ty : Ty} {j : Json} {v : Value} (h : ofJson s ty j = .ok v) :
    Loads s ty.underlying j v := by
  cases j with
  | null =>
    cases h
    exact .null _
  | bool b =>
    rw [ofJson] at h
    split at h
    · rename_i hty
      cases h
      exact hty ▸ .bool b
    · cases h
  | number n =>
    rw [ofJson] at h
    split at h
    · rename_i hty
      cases hn : n.int64? with
      | none =>
        rw [hn] at h
        cases h
      | some i =>
        rw [hn] at h
        cases h
        exact hty ▸ .int hn
    · rename_i hty
      cases h
      exact hty ▸ .float n
    · rename_i name hty
      split at h
      · rename_i i hn
        obtain ⟨c, hc, rfl⟩ := map_eq_ok.1 h
        exact hty ▸ .ordinal hn hc
      · cases h
    · cases h
  | string text =>
    rw [ofJson] at h
    split at h
    · cases h
    · rename_i hty
      exact .text hty h
  | array items =>
    rw [ofJson] at h
    split at h
    · rename_i elem hty
      rw [ofItems_eq_mapM] at h
      obtain ⟨vs, hvs, rfl⟩ := map_eq_ok.1 h
      exact hty ▸ .list (mapM_eq_ok.1 hvs)
    · cases h
  | object entries =>
    rw [ofJson] at h
    split at h
    · rename_i name hty
      obtain ⟨r, hr, h⟩ := bind_eq_ok.1 h
      obtain ⟨fields, hfields, h⟩ := bind_eq_ok.1 h
      cases h
      exact hty ▸ .record (Schema.record_eq_ok.1 hr) hfields
    · cases h

theorem ofJson_of_loads {ty : Ty} {j : Json} {v : Value} (h : Loads s ty.underlying j v) :
    ofJson s ty j = .ok v := by
  generalize hty : ty.underlying = inner at h
  cases h with
  | null => rfl
  | bool b => rw [ofJson, hty]
  | int hn =>
    rw [ofJson, hty]
    dsimp only
    rw [hn]
    rfl
  | float n => rw [ofJson, hty]
  | ordinal hn hc =>
    rw [ofJson, hty]
    dsimp only
    rw [hn]
    dsimp only
    rw [hc]
    rfl
  | text hlist hread =>
    rw [ofJson, hty]
    split
    · exact absurd rfl (hlist _)
    · exact hread
  | list hitems =>
    rw [ofJson, hty]
    dsimp only
    rw [ofItems_eq_mapM, mapM_eq_ok.2 hitems]
    rfl
  | record hr hfields =>
    rw [ofJson, hty]
    dsimp only
    rw [Schema.record_eq_ok.2 hr, ok_bind, hfields]
    rfl

/-- **The loader gives a value exactly as one of its rules does.** -/
theorem ofJson_eq_ok {ty : Ty} {j : Json} {v : Value} :
    ofJson s ty j = .ok v ↔ Loads s ty.underlying j v :=
  ⟨loads_of_ofJson, ofJson_of_loads⟩

/-! ## Fields of records -/

theorem get?_insert (name other : String) (v : Value) (fields : List (String × Value)) :
    get? (insert name v fields) other = if other = name then some v else get? fields other := by
  unfold get?
  induction fields with
  | nil => exact lookup_cons_eq_ite name other v []
  | cons x fields ih =>
    rw [insert]
    by_cases hx : x.1 = name
    · rw [if_pos hx, lookup_cons_eq_ite, lookup_cons_eq_ite, hx]
      split <;> rfl
    · rw [if_neg hx, lookup_cons_eq_ite, lookup_cons_eq_ite, ih]
      by_cases h : other = name
      · rw [if_pos h, if_pos h, if_neg (h ▸ Ne.symm hx)]
      · rw [if_neg h, if_neg h]

end Value

def lastNamed? (fields : List Field) (name : String) : Option Field :=
  fields.reverse.find? (·.name == name)

theorem lastNamed?_cons (f : Field) (fields : List Field) (name : String) :
    lastNamed? (f :: fields) name =
      (lastNamed? fields name).or (if f.name = name then some f else none) := by
  unfold lastNamed?
  rw [List.reverse_cons, List.find?_append, List.find?_singleton]
  simp only [beq_iff_eq]

theorem mem_of_lastNamed? {fields : List Field} {name : String} {f : Field}
    (h : lastNamed? fields name = some f) : f ∈ fields ∧ f.name = name := by
  refine ⟨List.mem_reverse.1 (List.mem_of_find?_eq_some h), ?_⟩
  simpa using List.find?_some h

theorem exists_lastNamed? {fields : List Field} {f : Field} (h : f ∈ fields) :
    ∃ g, lastNamed? fields f.name = some g := by
  cases hlast : lastNamed? fields f.name with
  | some g => exact ⟨g, rfl⟩
  | none =>
    have hne := List.find?_eq_none.1 hlast f (List.mem_reverse.2 h)
    simp at hne

/-- A record that was loaded has the values of the last declarations. -/
theorem Value.get?_of_foldlM {s : Schema} {entries : List (String × Json)} {fs : List Field}
    {acc fields : List (String × Value)}
    (h : fs.foldlM (fun fields f => do return insert f.name (← ofEntry s f entries) fields) acc =
      .ok fields) (name : String) :
    (lastNamed? fs name = none ∧ get? fields name = get? acc name) ∨
      ∃ f v, lastNamed? fs name = some f ∧ ofEntry s f entries = .ok v ∧
        get? fields name = some v := by
  induction fs generalizing acc with
  | nil =>
    cases h
    exact .inl ⟨rfl, rfl⟩
  | cons f fs ih =>
    rw [List.foldlM_cons, bind_eq_ok] at h
    obtain ⟨acc', hacc', h⟩ := h
    obtain ⟨v, hv, hacc'⟩ := bind_eq_ok.1 hacc'
    cases hacc'
    rw [lastNamed?_cons]
    rcases ih h with ⟨hlast, hget⟩ | ⟨g, w, hlast, hw, hget⟩
    · rw [get?_insert] at hget
      by_cases hname : f.name = name
      · rw [if_pos hname.symm] at hget
        exact .inr ⟨f, v, by rw [hlast, if_pos hname]; rfl, hv, hget⟩
      · rw [if_neg (Ne.symm hname)] at hget
        exact .inl ⟨by rw [hlast, if_neg hname]; rfl, hget⟩
    · exact .inr ⟨g, w, by rw [hlast]; rfl, hw, hget⟩

/-! ## The settled catalog -/

/-- The record type with only the last declaration of each field. -/
def RecordType.settled (r : RecordType) : RecordType :=
  { r with fields := r.fields.filter fun f => lastNamed? r.fields f.name == some f }

/-- The catalog in which only the last declaration of a field counts. -/
def Schema.settled (s : Schema) : Schema := { s with records := s.records.map RecordType.settled }

theorem Schema.record?_settled (s : Schema) (name : String) :
    s.settled.record? name = (s.record? name).map RecordType.settled := by
  unfold settled record?
  rw [List.find?_map]
  rfl

theorem RecordType.mem_settled {r : RecordType} {f : Field} :
    f ∈ r.settled.fields ↔ lastNamed? r.fields f.name = some f := by
  unfold settled
  rw [List.mem_filter, beq_iff_eq]
  exact and_iff_right_of_imp fun h => (mem_of_lastNamed? h).1

/-- A record that was loaded from an object belongs to its type, if the values of the entries do. -/
theorem Value.conforms_of_entries {s : Schema} {name : String} {r : RecordType}
    {entries : List (String × Json)} {fields : List (String × Value)} (hr : s.record? name = some r)
    (hentries : ∀ x ∈ entries, ∀ ty v, ofJson s ty x.2 = .ok v → v.Conforms s.settled ty)
    (h : r.fields.foldlM (fun fields f => do return insert f.name (← ofEntry s f entries) fields) [] =
      .ok fields) : (Value.record fields).Conforms s.settled (.record name) := by
  refine .record fun r' hr' f hf v hv => ?_
  rw [Schema.record?_settled, hr] at hr'
  cases hr'
  have hlast : lastNamed? r.fields f.name = some f := RecordType.mem_settled.1 hf
  rcases get?_of_foldlM h f.name with ⟨hnone, -⟩ | ⟨g, w, hg, hw, hget⟩
  · rw [hlast] at hnone
    cases hnone
  · cases Option.some.inj (hlast.symm.trans hg)
    cases Option.some.inj (hv.symm.trans hget)
    rcases eq_null_or_of_ofEntry hw with rfl | ⟨x, hx, hload⟩
    · exact .null f.ty
    · exact hentries x hx f.ty v hload

/-- **A value read from JSON belongs to the type that was asked for**, in the settled catalog. -/
theorem Value.conforms_of_ofJson {s : Schema} {ty : Ty} {j : Json} {v : Value}
    (h : ofJson s ty j = .ok v) : v.Conforms s.settled ty := by
  rw [ofJson_eq_ok] at h
  rw [← conforms_underlying]
  generalize ty.underlying = inner at h ⊢
  induction j using Json.induction generalizing inner v with
  | array items ih =>
    cases h with
    | @list elem _ vs h =>
      refine .list fun v hv => ?_
      obtain ⟨item, hitem, hv⟩ := exists_mem_of_forall₂ h.flip hv
      exact conforms_underlying.1 (ih item hitem _ (ofJson_eq_ok.1 hv))
  | object entries ih =>
    cases h with
    | record hr h =>
      refine conforms_of_entries hr (fun x hx ty v hv => ?_) h
      exact conforms_underlying.1 (ih x hx _ (ofJson_eq_ok.1 hv))
  | string text =>
    cases h with
    | text _ h => exact conforms_of_read h
  | _ => cases h <;> constructor

end RecordQuery
