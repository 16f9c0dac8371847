import RecordQuery.Proofs.Value.Writing

/-!
# Loading what was written

A value that was loaded from JSON and written as JSON is loaded as the same value, if nothing in it is
written in a form that says less. Loading and writing meet at a description of the values that are
loaded: the loader gives no others, and all of these are loaded from what they are written as.

* `Schema.IsRegular` : the catalogs in which fields and constants can be told apart in JSON;
* `Value.Complete s v ty` : the value belongs to the type, and its records have exactly the declared
  fields in their order;
* `Value.complete_of_ofJson` : every loaded value is complete;
* `Value.IsWritable` : no part of the value is a float that is not finite or a moment with nanoseconds;
* `Json.exists_ofEntries` : an object made from entries of distinct keys has all of them;
* `Value.ofJson_toJson` : a complete value is loaded from what it is written as;
* `Value.complete_and_reloaded_of_ofJson` : both together.
-/

namespace RecordQuery

/-! ## Catalogs and types -/

/-- No nullable type is directly inside another. -/
def Ty.Flat : Ty → Prop
  | .nullable inner => inner.isNullable = false ∧ inner.Flat
  | .list elem => elem.Flat
  | _ => True

theorem Ty.underlying_of_not_isNullable {ty : Ty} (h : ty.isNullable = false) :
    ty.underlying = ty := by
  cases ty <;> first | rfl | cases h

/-- Record types declare each name once and have flat field types, and enumerations are legible. -/
structure Schema.IsRegular (s : Schema) : Prop where
  nodup : ∀ r ∈ s.records, (r.fields.map Field.name).Nodup
  flat : ∀ r ∈ s.records, ∀ f ∈ r.fields, f.ty.Flat
  legible : ∀ e ∈ s.enums, e.IsLegible

/-! ## Complete values -/

/-- The value belongs to the type; records have exactly the declared fields, in the order of their
declarations. -/
inductive Value.Complete (s : Schema) : Value → Ty → Prop
  | null (ty : Ty) : Complete s .null ty
  | bool (b : Bool) : Complete s (.bool b) .bool
  | int (n : Int64) : Complete s (.int n) .int
  | float (x : Binary64) : Complete s (.float x) .float
  | string (t : String) : Complete s (.string t) .string
  | uuid (u : Uuid) : Complete s (.uuid u) .uuid
  | date (d : Date) : Complete s (.date d) .date
  | dateTime (t : DateTime) : Complete s (.dateTime t) .dateTime
  | enum {c : Constant} {name : String} {e : EnumType} (he : s.enumeration? name = some e)
      (hc : e.Has c) : Complete s (.enum c) (.enum name)
  | list {items : List Value} {elem : Ty} (h : ∀ v ∈ items, Complete s v elem) :
      Complete s (.list items) (.list elem)
  | record {fields : List (String × Value)} {name : String} {r : RecordType}
      (hr : s.record? name = some r) (names : fields.map Prod.fst = r.fields.map Field.name)
      (h : ∀ f ∈ r.fields, ∀ v, (f.name, v) ∈ fields → Complete s v f.ty) :
      Complete s (.record fields) (.record name)
  | nullable {v : Value} {inner : Ty} (h : Complete s v inner) : Complete s v (.nullable inner)

namespace Value
variable {s : Schema} {v : Value} {ty inner : Ty}

theorem Complete.of_underlying (hty : ty.underlying = inner) (h : v.Complete s inner) :
    v.Complete s ty := by
  subst hty
  cases ty with
  | nullable inner => exact .nullable h
  | _ => exact h

/-! ## Loading -/

theorem complete_of_read {raw : String} (h : read s raw ty = .ok v) : v.Complete s ty := by
  have hconf : v.Conforms s ty := conforms_of_read h
  induction ty with
  | nullable inner ih =>
    rw [read] at h
    split at h
    · cases h
      exact .null _
    · exact .nullable (ih h (conforms_nullable.1 hconf))
  | enum name =>
    rw [read] at h
    obtain ⟨c, hc, rfl⟩ := map_eq_ok.1 h
    obtain ⟨e, he, hhas⟩ := Constant.has_of_read hc
    exact .enum he hhas
  | record name => cases h
  | shape id => cases h
  | list elem => cases h
  | _ => cases hconf <;> constructor

theorem insert_of_notMem {name : String} {fields : List (String × Value)}
    (h : name ∉ fields.map Prod.fst) : insert name v fields = fields ++ [(name, v)] := by
  induction fields with
  | nil => rfl
  | cons x fields ih =>
    rw [List.map_cons, List.mem_cons, not_or] at h
    rw [insert, if_neg (Ne.symm h.1), ih h.2]
    rfl

theorem foldlM_insert_eq_ok {fs : List Field} {g : Field → Except Error Value}
    {acc fields : List (String × Value)} (hnodup : (acc.map Prod.fst ++ fs.map Field.name).Nodup) :
    fs.foldlM (fun fields f => do return insert f.name (← g f) fields) acc = .ok fields ↔
      ∃ xs, List.Forall₂ (fun f x => f.name = x.1 ∧ g f = .ok x.2) fs xs ∧ fields = acc ++ xs := by
  induction fs generalizing acc with
  | nil => simp [eq_comm]
  | cons f fs ih =>
    have hname : f.name ∉ acc.map Prod.fst := fun hmem =>
      (List.nodup_append.1 hnodup).2.2 _ hmem _ List.mem_cons_self rfl
    have hrest (v : Value) : ((acc ++ [(f.name, v)]).map Prod.fst ++ fs.map Field.name).Nodup := by
      simpa using hnodup
    rw [List.foldlM_cons, bind_eq_ok]
    constructor
    · rintro ⟨acc', hacc', h⟩
      obtain ⟨v, hv, hacc'⟩ := bind_eq_ok.1 hacc'
      cases hacc'
      rw [insert_of_notMem hname, ih (hrest v)] at h
      obtain ⟨xs, hxs, rfl⟩ := h
      exact ⟨(f.name, v) :: xs, .cons ⟨rfl, hv⟩ hxs, by simp⟩
    · rintro ⟨xs, hxs, rfl⟩
      cases hxs with
      | @cons _ x _ xs hx hxs =>
        obtain ⟨name, v⟩ := x
        obtain ⟨rfl, hv⟩ := hx
        refine ⟨acc ++ [(f.name, v)], ?_, (ih (hrest v)).2 ⟨xs, hxs, by simp⟩⟩
        rw [hv, ok_bind, insert_of_notMem hname]
        rfl

theorem foldlM_insert_nil_eq_ok {fs : List Field} {g : Field → Except Error Value}
    {fields : List (String × Value)} (hnodup : (fs.map Field.name).Nodup) :
    fs.foldlM (fun fields f => do return insert f.name (← g f) fields) [] = .ok fields ↔
      List.Forall₂ (fun f x => f.name = x.1 ∧ g f = .ok x.2) fs fields := by
  rw [foldlM_insert_eq_ok (by simpa using hnodup)]
  simp

/-- A record that was loaded from an object is complete, if the values of the entries are. -/
theorem complete_of_entries {name : String} {r : RecordType} {entries : List (String × Json)}
    {fields : List (String × Value)} (hr : s.record? name = some r)
    (hnodup : (r.fields.map Field.name).Nodup)
    (hentries : ∀ x ∈ entries, ∀ ty v, ofJson s ty x.2 = .ok v → v.Complete s ty)
    (h : r.fields.foldlM (fun fields f => do return insert f.name (← ofEntry s f entries) fields) [] =
      .ok fields) : (Value.record fields).Complete s (.record name) := by
  have hfields := (foldlM_insert_nil_eq_ok hnodup).1 h
  have hnames : List.Forall₂ (fun f x => f.name = x.1) r.fields fields := hfields.imp fun _ _ h => h.1
  refine .record hr (forall₂_map_eq_iff.1 hnames).symm fun f hf v hv => ?_
  obtain ⟨g, hg, hname, hload⟩ := exists_mem_of_forall₂ hfields.flip hv
  -- Names are declared once, so the value was loaded for this very declaration.
  cases List.inj_on_of_nodup_map hnodup hg hf hname
  rcases eq_null_or_of_ofEntry hload with rfl | ⟨x, hx, hload⟩
  · exact .null f.ty
  · exact hentries x hx f.ty v hload

/-- **Every value loaded from JSON is complete.** -/
theorem complete_of_ofJson (hs : ∀ r ∈ s.records, (r.fields.map Field.name).Nodup) {j : Json}
    (h : ofJson s ty j = .ok v) : v.Complete s ty := by
  rw [ofJson_eq_ok] at h
  refine .of_underlying rfl ?_
  -- The parts of the document are loaded for other types, so the induction is over all of them.
  generalize ty.underlying = inner at h ⊢
  induction j using Json.induction generalizing inner v with
  | number n =>
    cases h with
    | int => exact .int _
    | float => exact .float _
    | ordinal _ hc =>
      obtain ⟨e, he, hhas⟩ := Constant.has_of_read hc
      exact .enum he hhas
  | string text =>
    cases h with
    | text _ h => exact complete_of_read h
  | array items ih =>
    cases h with
    | list h =>
      refine .list fun v hv => ?_
      obtain ⟨item, hitem, hv⟩ := exists_mem_of_forall₂ h.flip hv
      exact .of_underlying rfl (ih item hitem _ (ofJson_eq_ok.1 hv))
  | object entries ih =>
    cases h with
    | record hr h =>
      refine complete_of_entries hr (hs _ (List.mem_of_find?_eq_some hr)) (fun x hx ty v hv => ?_) h
      exact .of_underlying rfl (ih x hx _ (ofJson_eq_ok.1 hv))
  | null | bool =>
    cases h
    constructor

/-! ## Writing -/

/-- Every part of the value is written in full: no float in it lacks a number, and no moment in it has
nanoseconds. -/
inductive IsWritable : Value → Prop
  | null : IsWritable .null
  | bool (b : Bool) : IsWritable (.bool b)
  | int (n : Int64) : IsWritable (.int n)
  | float {x : Binary64} (h : x.isFinite) : IsWritable (.float x)
  | string (t : String) : IsWritable (.string t)
  | uuid (u : Uuid) : IsWritable (.uuid u)
  | date (d : Date) : IsWritable (.date d)
  | dateTime {t : DateTime} (h : t.time.nanosecond = 0) : IsWritable (.dateTime t)
  | enum (c : Constant) : IsWritable (.enum c)
  | list {items : List Value} (h : ∀ v ∈ items, IsWritable v) : IsWritable (.list items)
  | record {fields : List (String × Value)} (h : ∀ x ∈ fields, IsWritable x.2) :
      IsWritable (.record fields)
  | shape {shape : Shape} {values : List Value} (h : ∀ v ∈ values, IsWritable v) :
      IsWritable (.shape shape values)

theorem itemsToJson_eq_map (items : List Value) : itemsToJson items = items.map toJson := by
  induction items with
  | nil => rfl
  | cons v items ih => rw [itemsToJson, List.map_cons, ih]

theorem fieldsToJson_eq_map (fields : List (String × Value)) :
    fieldsToJson fields = fields.map fun x => (x.1, x.2.toJson) := by
  induction fields with
  | nil => rfl
  | cons x fields ih => rw [fieldsToJson, List.map_cons, ih]

end Value

namespace Json

theorem Number.int64?_toInt (n : Int64) : Number.int64? (.integer n.toInt) = some n := by
  have hlimit : -Integer.limit ≤ n.toInt ∧ n.toInt < Integer.limit := ⟨n.le_toInt, n.toInt_lt⟩
  rw [int64?, if_pos hlimit, Int64.ofInt_toInt]

theorem lookup_insertEntry (key other : String) (j : Json) (entries : List (String × Json)) :
    (insertEntry key j entries).lookup other =
      if other = key then some j else entries.lookup other := by
  induction entries with
  | nil => exact lookup_cons_eq_ite key other j []
  | cons x entries ih =>
    rw [insertEntry]
    by_cases hx : key = x.1
    · rw [if_pos hx, lookup_cons_eq_ite, lookup_cons_eq_ite, hx]
      split <;> rfl
    · rw [if_neg hx]
      split
      · exact lookup_cons_eq_ite key other j _
      · rw [lookup_cons_eq_ite, lookup_cons_eq_ite, ih]
        by_cases h : other = key
        · rw [if_pos h, if_pos h, if_neg (h ▸ hx)]
        · rw [if_neg h, if_neg h]

theorem lookup_foldl_insertEntry (key : String) (entries acc : List (String × Json)) :
    (entries.foldl (fun acc (key, value) => insertEntry key value acc) acc).lookup key =
      (entries.reverse.lookup key).or (acc.lookup key) := by
  induction entries generalizing acc with
  | nil => rfl
  | cons x entries ih =>
    rw [List.foldl_cons, ih, lookup_insertEntry, List.reverse_cons, List.lookup_append,
      Option.or_assoc, lookup_cons_eq_ite]
    split <;> rfl

theorem exists_ofEntries {entries : List (String × Json)} (hnodup : (entries.map Prod.fst).Nodup) :
    ∃ sorted, ofEntries entries = .object sorted ∧ ∀ x ∈ entries, sorted.lookup x.1 = some x.2 := by
  refine ⟨_, rfl, fun x hx => ?_⟩
  have hreverse : (entries.reverse.map Prod.fst).Nodup := by
    rw [List.map_reverse]
    exact List.nodup_reverse.2 hnodup
  rw [lookup_foldl_insertEntry, lookup_of_mem hreverse (List.mem_reverse.2 hx)]
  rfl

end Json

namespace Value
variable {s : Schema} {v : Value} {ty : Ty}

/-- The fields of a complete record are loaded one by one from the object that it is written as. -/
theorem loads_record {name : String} {r : RecordType} {fields : List (String × Value)}
    (hr : s.record? name = some r) (hnodup : (r.fields.map Field.name).Nodup)
    (names : fields.map Prod.fst = r.fields.map Field.name)
    (h : ∀ f ∈ r.fields, ∀ v, (f.name, v) ∈ fields → ofJson s f.ty v.toJson = .ok v) :
    Loads s (.record name) (toJson (.record fields)) (.record fields) := by
  have hkeys : ((fields.map fun x => (x.1, x.2.toJson)).map Prod.fst).Nodup := by
    rw [List.map_map]
    exact names ▸ hnodup
  obtain ⟨entries, hentries, hlookup⟩ := Json.exists_ofEntries hkeys
  rw [toJson, fieldsToJson_eq_map, hentries]
  refine .record hr ((foldlM_insert_nil_eq_ok hnodup).2 ?_)
  -- Declarations and fields have the same names in the same order, so they go together one by one.
  obtain ⟨hlen, hnames⟩ := List.forall₂_iff_zip.1 (forall₂_map_eq_iff.2 names.symm)
  refine List.forall₂_iff_zip.2 ⟨hlen, fun {f x} hzip => ?_⟩
  obtain ⟨hf, hx⟩ := List.of_mem_zip hzip
  have hname : f.name = x.1 := hnames hzip
  refine ⟨hname, ?_⟩
  rw [ofEntry_eq, hname, hlookup (x.1, x.2.toJson) (List.mem_map_of_mem hx)]
  exact h f hf x.2 (hname ▸ hx)

/-- **A complete value is loaded from what it is written as**, if all of it is written in full. -/
theorem ofJson_toJson (hs : s.IsRegular) (h : v.Complete s ty) (hty : ty.Flat) (hv : v.IsWritable) :
    ofJson s ty v.toJson = .ok v := by
  induction h with
  | @nullable v inner _ ih =>
    -- The loader takes off one wrapper, so the type inside may have none of its own.
    have hinner : inner.underlying = inner := Ty.underlying_of_not_isNullable hty.1
    have hload := ofJson_eq_ok.1 (ih hty.2 hv)
    rw [hinner] at hload
    exact ofJson_eq_ok.2 hload
  | null ty => exact ofJson_eq_ok.2 (.null _)
  | bool b => exact ofJson_eq_ok.2 (.bool b)
  | int n => exact ofJson_eq_ok.2 (.int (Json.Number.int64?_toInt n))
  | float x =>
    cases hv with
    | float hx =>
      rw [toJson, if_pos hx]
      exact ofJson_eq_ok.2 (.float (.float x))
  | string t => exact ofJson_eq_ok.2 (.text nofun rfl)
  | uuid u => exact ofJson_eq_ok.2 (.text nofun (read_uuid u))
  | date d => exact ofJson_eq_ok.2 (.text nofun (read_date d))
  | dateTime t =>
    cases hv with
    | dateTime ht => exact ofJson_eq_ok.2 (.text nofun (read_dateTime ht))
  | enum he hc =>
    have hlegible := hs.legible _ (List.mem_of_find?_eq_some he)
    exact ofJson_eq_ok.2 (.text nofun (read_enum he hlegible hc))
  | list _ ih =>
    cases hv with
    | list hitems =>
      rw [toJson, itemsToJson_eq_map]
      refine ofJson_eq_ok.2 (.list (List.forall₂_map_left_iff.2 (List.forall₂_same.2 fun v hv => ?_)))
      exact ih v hv hty (hitems v hv)
  | @record fields name r hr names _ ih =>
    cases hv with
    | record hfields =>
      have hmem : r ∈ s.records := List.mem_of_find?_eq_some hr
      refine ofJson_eq_ok.2 (loads_record hr (hs.nodup r hmem) names fun f hf v hv => ?_)
      exact ih f hf v hv (hs.flat r hmem f hf) (hfields _ hv)

/-- **Loading is sound and stable**: a value that was loaded from JSON is complete for its type, and
it is loaded again from what it is written as, if all of it is written in full. -/
theorem complete_and_reloaded_of_ofJson (hs : s.IsRegular) (hty : ty.Flat) {j : Json}
    (h : ofJson s ty j = .ok v) :
    v.Complete s ty ∧ (v.IsWritable → ofJson s ty v.toJson = .ok v) :=
  have hcomplete : v.Complete s ty := complete_of_ofJson hs.nodup h
  ⟨hcomplete, ofJson_toJson hs hcomplete hty⟩

/-! ## A delivery and the one after it -/

/-- A delivery may point to the one after it, so the type refers to itself. -/
def deliveries : Schema :=
  ⟨[⟨"Delivery", [⟨"state", .enum "State"⟩, ⟨"due", .dateTime⟩, ⟨"parts", .list .int⟩,
    ⟨"next", .nullable (.record "Delivery")⟩]⟩], [⟨"State", [("Open", 0), ("Closed", 1)]⟩]⟩

/-- The state is given by its ordinal and the moment with an offset; the delivery after it leaves out
all but its state. -/
def deliveryJson : Json :=
  .object [("due", .string "2024-03-01T10:30:00+02:00"),
    ("next", .object [("state", .string " Closed ")]), ("parts", .array [.number (.integer 3), .null]),
    ("state", .number (.integer 0))]

def delivery : Value :=
  .record [("state", .enum ⟨0, some "Open"⟩),
    ("due", .dateTime ⟨⟨2024, 3, 1, by decide⟩, ⟨8, 30, 0, 0, by decide⟩⟩),
    ("parts", .list [.int 3, .null]),
    ("next", .record [("state", .enum ⟨1, some "Closed"⟩), ("due", .null), ("parts", .null),
      ("next", .null)])]

theorem isWritable_delivery : delivery.IsWritable := by
  have hparts : (Value.list [.int 3, .null]).IsWritable :=
    .list (by simp [IsWritable.int, IsWritable.null])
  have hnext : (Value.record [("state", .enum ⟨1, some "Closed"⟩), ("due", .null), ("parts", .null),
      ("next", .null)]).IsWritable := .record (by simp [IsWritable.enum, IsWritable.null])
  have hdue {d : Date} {hour minute second : Nat} {h : TimeOfDay.IsValid hour minute second 0} :
      (Value.dateTime ⟨d, ⟨hour, minute, second, 0, h⟩⟩).IsWritable := .dateTime rfl
  exact .record (by simp [IsWritable.enum, hdue, hparts, hnext])

theorem isRegular_deliveries : deliveries.IsRegular := by
  constructor
  · decide
  · simp [deliveries, Ty.Flat, Ty.isNullable]
  · intro e he
    cases List.mem_singleton.1 he
    exact ⟨by decide, by decide, by decide⟩

theorem delivery_reloaded :
    ofJson deliveries (.record "Delivery") deliveryJson = .ok delivery ∧
      delivery.Complete deliveries (.record "Delivery") ∧
      ofJson deliveries (.record "Delivery") delivery.toJson = .ok delivery := by
  have hload : ofJson deliveries (.record "Delivery") deliveryJson = .ok delivery := by rfl
  have hflat : (Ty.record "Delivery").Flat := trivial
  obtain ⟨hcomplete, hreload⟩ := complete_and_reloaded_of_ofJson isRegular_deliveries hflat hload
  exact ⟨hload, hcomplete, hreload isWritable_delivery⟩

end Value

end RecordQuery
