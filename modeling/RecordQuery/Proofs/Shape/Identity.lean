import RecordQuery.Proofs.Shape.History

/-!
# Which requests share a shape

A cache knows field lists by their keys only, and the text of a type may hold the separators of a
key. So a request can find the shape of other fields than its own.

* `Registry.firstAsked`, `Registry.fields_find?_after` : a cache keeps under a key the shape of the
  first accepted fields of that key that were asked of it;
* `Registry.shape_getOrCreate_after` : when a request gets a shape of its own fields, and when two
  requests get one shape;
* `Registry.shape_wide_ne` : two field lists that share a key, and a shape.
-/

namespace RecordQuery.Shape.Registry

variable {r r' : Registry} {name : String} {fields : List Field} {shape : Shape}

/-! ## What is found under a key -/

def Request.Asks (name key : String) (q : Request) : Prop :=
  q.cache = name ∧ Signature.Accepted q.fields ∧ Signature.text q.fields = key

instance (name key : String) : DecidablePred (Request.Asks name key) :=
  fun _ => inferInstanceAs (Decidable (_ ∧ _ ∧ _))

def firstAsked (name key : String) (qs : List Request) : Option (List Field) :=
  (qs.find? fun q => decide (q.Asks name key)).map Request.fields

theorem firstAsked_eq_some {key : String} {qs : List Request}
    (h : firstAsked name key qs = some fields) :
    ⟨name, fields⟩ ∈ qs ∧ Signature.Accepted fields ∧ Signature.text fields = key := by
  obtain ⟨⟨cache, asked⟩, hfind, rfl⟩ := Option.map_eq_some_iff.1 h
  have hq := List.find?_some hfind
  rw [decide_eq_true_eq] at hq
  obtain ⟨rfl, haccepted, hkey⟩ := hq
  exact ⟨List.mem_of_find?_eq_some hfind, haccepted, hkey⟩

theorem fields_find?_request (r : Registry) (q : Request) (name key : String) :
    ((r.request q).find? name key).map Shape.fields = ((r.find? name key).map Shape.fields).or
      (if q.Asks name key then some q.fields else none) := by
  by_cases haccepted : Signature.Accepted q.fields
  · obtain ⟨shape, r', hok⟩ := getOrCreate_isOk_iff.2 haccepted
    rw [show r.request q = r' from request_of_eq_ok hok, find?_getOrCreate hok]
    by_cases hself : name = q.cache ∧ key = Signature.text q.fields
    · rw [if_pos hself, if_pos ⟨hself.1.symm, haccepted, hself.2.symm⟩, hself.1, hself.2]
      obtain ⟨-, ⟨hfound, -⟩ | ⟨hnone, hshape, -⟩⟩ := getOrCreate_cases hok
      · rw [hfound]
        rfl
      · rw [hnone, hshape]
        rfl
    · rw [if_neg hself, if_neg fun h => hself ⟨h.1.symm, h.2.2.symm⟩, Option.or_none]
  · rw [request_of_not_accepted haccepted, if_neg fun h => haccepted h.2.1, Option.or_none]

/-- After any history, the shape under a key has the fields that were first asked with it. -/
theorem fields_find?_after (name key : String) (qs : List Request) :
    ((after qs).find? name key).map Shape.fields = firstAsked name key qs := by
  induction qs using List.reverseRecOn with
  | nil => rfl
  | append_singleton qs q ih =>
    rw [after_append, firstAsked, List.find?_append, Option.map_or]
    rw [show (qs.find? _).map Request.fields = firstAsked name key qs from rfl, ← ih]
    show (((after qs).request q).find? name key).map Shape.fields = _
    rw [fields_find?_request, List.find?_singleton]
    congr 1
    by_cases hq : q.Asks name key
    · rw [if_pos hq, if_pos (decide_eq_true hq)]
      rfl
    · rw [if_neg hq, if_neg fun h => hq (of_decide_eq_true h)]
      rfl

/-! ## Shapes and field lists -/

theorem fields_getOrCreate_after {qs : List Request}
    (h : (after qs).getOrCreate name fields = .ok (shape, r')) :
    shape.fields = (firstAsked name (Signature.text fields) qs).getD fields := by
  rw [← fields_find?_after]
  obtain ⟨-, ⟨hfound, -⟩ | ⟨hnone, hshape, -⟩⟩ := getOrCreate_cases h
  · rw [hfound]
    rfl
  · rw [hnone, hshape]
    rfl

theorem id_getOrCreate_iff {fields' : List Field} {shape' : Shape} {r'' : Registry}
    (hr : r.Sound) (hfound : r.find? name (Signature.text fields) = some shape)
    (h : r.getOrCreate name fields' = .ok (shape', r'')) :
    shape'.id = shape.id ↔ Signature.text fields' = Signature.text fields := by
  have hself := find?_getOrCreate_self h
  have hold := find?_getOrCreate_of_eq_some h hfound
  constructor
  · intro hid
    exact ((hr.getOrCreate h).id_inj hself hold hid).2
  · intro hkey
    rw [hkey, hold] at hself
    rw [Option.some.inj hself]

def Request.Legible (s : Schema) (q : Request) : Prop := ∀ f ∈ q.fields, f.ty.Legible s

/-- **A request gets a shape of its own fields exactly if the first request with its key had the same
fields, and later requests get the same shape exactly if they have the same key. If the names of all
types asked of the cache read back, then every request gets its own fields, and different fields get
different shapes.** -/
theorem shape_getOrCreate_after {qs : List Request}
    (h : (after qs).getOrCreate name fields = .ok (shape, r')) :
    (shape.fields = fields ↔
      ∀ first, firstAsked name (Signature.text fields) qs = some first → first = fields) ∧
    (∀ later fields' shape' r'',
      (after (qs ++ ⟨name, fields⟩ :: later)).getOrCreate name fields' = .ok (shape', r'') →
        (shape'.id = shape.id ↔ Signature.text fields' = Signature.text fields)) ∧
    ∀ s, (∀ q ∈ qs, q.cache = name → q.Legible s) → Request.Legible s ⟨name, fields⟩ →
      shape.fields = fields ∧ ∀ later fields' shape' r'',
        (after (qs ++ ⟨name, fields⟩ :: later)).getOrCreate name fields' = .ok (shape', r'') →
          Request.Legible s ⟨name, fields'⟩ → (shape'.id = shape.id ↔ fields' = fields) := by
  have haccepted := (getOrCreate_cases h).1
  have hown : shape.fields = fields ↔
      ∀ first, firstAsked name (Signature.text fields) qs = some first → first = fields := by
    rw [fields_getOrCreate_after h]
    cases firstAsked name (Signature.text fields) qs <;> simp
  have hlater : ∀ later fields' shape' r'',
      (after (qs ++ ⟨name, fields⟩ :: later)).getOrCreate name fields' = .ok (shape', r'') →
        (shape'.id = shape.id ↔ Signature.text fields' = Signature.text fields) := by
    intro later fields' shape' r'' h'
    refine id_getOrCreate_iff (sound_after _) ?_ h'
    rw [after_append, List.foldl_cons, request_of_eq_ok h]
    exact find?_foldl_request later (find?_getOrCreate_self h)
  refine ⟨hown, hlater, fun s hqs hfields => ⟨hown.2 ?_, ?_⟩⟩
  · intro first hfirst
    obtain ⟨hmem, hfirst, hkey⟩ := firstAsked_eq_some hfirst
    exact hfirst.eq_of_legible haccepted (hqs _ hmem rfl) hfields hkey
  · intro later fields' shape' r'' h' hfields'
    rw [hlater later fields' shape' r'' h']
    refine ⟨fun hkey => ?_, fun hfields => hfields ▸ rfl⟩
    exact (getOrCreate_cases h').1.eq_of_legible haccepted hfields' hfields hkey

/-! ## Two field lists with one key -/

/-- One field; the name of its type is what follows the first field's name in the key of `wide`. -/
def narrow : Request := ⟨"people", [⟨"a", .record "A|b~int"⟩]⟩

def wide : Request := ⟨"people", [⟨"a", .record "A"⟩, ⟨"b", .int⟩]⟩

/-- The registry after a request for each of the two. -/
def shared : Registry := ⟨2, [("people", ⟨[("a~A|b~int", ⟨1, narrow.fields⟩)], 1, 1⟩)]⟩

theorem getOrCreate_wide :
    (after [narrow]).getOrCreate wide.cache wide.fields = .ok (⟨1, narrow.fields⟩, shared) := rfl

/-- Not all requests get shapes of their own fields, and different fields can get one shape. -/
theorem shape_wide_ne :
    (after []).getOrCreate narrow.cache narrow.fields = .ok (⟨1, narrow.fields⟩, after [narrow]) ∧
    (after [narrow]).getOrCreate wide.cache wide.fields = .ok (⟨1, narrow.fields⟩, shared) ∧
      narrow.fields ≠ wide.fields :=
  ⟨rfl, getOrCreate_wide, by decide⟩

theorem shape_getOrCreate_wide :
    (after [narrow]).getOrCreate wide.cache wide.fields = .ok (⟨1, narrow.fields⟩, shared) ∧
    (¬ ∀ first, firstAsked wide.cache (Signature.text wide.fields) [narrow] = some first →
      first = wide.fields) ∧
    ∀ later fields' shape' r'',
      (after ([narrow] ++ wide :: later)).getOrCreate wide.cache fields' = .ok (shape', r'') →
        (shape'.id = 1 ↔ Signature.text fields' = Signature.text wide.fields) := by
  obtain ⟨hown, hlater, -⟩ := shape_getOrCreate_after getOrCreate_wide
  refine ⟨getOrCreate_wide, fun hfirst => ?_, hlater⟩
  exact absurd (hown.2 hfirst) (by decide)

end RecordQuery.Shape.Registry
