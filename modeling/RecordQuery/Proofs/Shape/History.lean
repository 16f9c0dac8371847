import Mathlib.Data.List.Induction
import RecordQuery.Proofs.Lookup
import RecordQuery.Proofs.Shape.Signature
import RecordQuery.Shape.Cache

/-!
# Histories of shape caches

* `Cache.getOrCreate_eq_ok`, `Registry.getOrCreate_eq_ok` : all that a successful request does;
* `Registry.find?_getOrCreate` : the shape under each key of each cache after it;
* `Registry.request`, `Registry.after` : the registry after one request, and after a history of them;
* `Registry.Sound`, `Registry.sound_after` : a shape is kept under its own key, and its number is its
  own.
-/

namespace RecordQuery.Shape

/-! ## One request to a cache -/

namespace Cache
variable {c c' : Cache} {next next' : Nat} {fields : List Field} {shape : Shape}

def hit (c : Cache) : Cache := { c with hits := c.hits + 1 }

def miss (c : Cache) (key : String) (shape : Shape) : Cache :=
  { c with entries := c.entries ++ [(key, shape)], misses := c.misses + 1 }

/-- A request finds the shape of its key, or makes the next one under it. -/
theorem getOrCreate_eq_ok :
    c.getOrCreate next fields = .ok (shape, c', next') ↔ Signature.Accepted fields ∧
      ((c.find? (Signature.text fields) = some shape ∧ c' = c.hit ∧ next' = next) ∨
        (c.find? (Signature.text fields) = none ∧ shape = ⟨next, fields⟩ ∧
          c' = c.miss (Signature.text fields) shape ∧ next' = next + 1)) := by
  unfold getOrCreate
  rw [bind_eq_ok]
  simp only [Signature.read_eq_ok, and_assoc, exists_eq_left, exists_and_left]
  refine and_congr_right fun _ => ?_
  cases c.find? (Signature.text fields) with
  | some found => simp [hit, eq_comm]
  | none =>
    constructor
    · intro h
      cases h
      exact .inr ⟨rfl, rfl, rfl, rfl⟩
    · rintro (⟨h, -⟩ | ⟨-, rfl, rfl, rfl⟩)
      · cases h
      · rfl

/-- A successful request leaves its shape under its key and all other keys as they were. -/
theorem find?_getOrCreate (h : c.getOrCreate next fields = .ok (shape, c', next')) (key : String) :
    c'.find? key = if key = Signature.text fields then some shape else c.find? key := by
  obtain ⟨-, ⟨hfound, rfl, -⟩ | ⟨hnone, -, rfl, -⟩⟩ := getOrCreate_eq_ok.1 h
  · by_cases hkey : key = Signature.text fields
    · rw [if_pos hkey, hkey]
      exact hfound
    · rw [if_neg hkey]
      rfl
  · unfold find? miss at *
    rw [List.lookup_append]
    by_cases hkey : key = Signature.text fields
    · rw [if_pos hkey, hkey, hnone, List.lookup_cons_self]
      rfl
    · rw [if_neg hkey, List.lookup_cons, beq_eq_false_iff_ne.2 hkey]
      exact Option.or_none

end Cache

namespace Registry

/-! ## One request to a registry -/

variable {r r' : Registry} {name : String} {fields : List Field} {shape : Shape}

theorem cache_setCache (r : Registry) (name other : String) (c : Cache) :
    (r.setCache name c).cache other = if other = name then c else r.cache other := by
  unfold setCache cache
  by_cases h : other = name
  · rw [if_pos h, h, List.lookup_cons_self]
    rfl
  · rw [if_neg h, List.lookup_cons, beq_eq_false_iff_ne.2 h]
    simp only [lookup_filter_ne h]

theorem getOrCreate_eq_ok :
    r.getOrCreate name fields = .ok (shape, r') ↔ ∃ c next,
      (r.cache name).getOrCreate r.next fields = .ok (shape, c, next) ∧
        r' = { r.setCache name c with next } := by
  unfold getOrCreate
  rw [bind_eq_ok]
  constructor
  · rintro ⟨⟨shape', c, next⟩, h, hr⟩
    cases hr
    exact ⟨c, next, h, rfl⟩
  · rintro ⟨c, next, h, rfl⟩
    exact ⟨_, h, rfl⟩

def find? (r : Registry) (name key : String) : Option Shape := (r.cache name).find? key

theorem find?_getOrCreate (h : r.getOrCreate name fields = .ok (shape, r')) (other key : String) :
    r'.find? other key = if other = name ∧ key = Signature.text fields then some shape
      else r.find? other key := by
  obtain ⟨c, next, hc, rfl⟩ := getOrCreate_eq_ok.1 h
  unfold find?
  rw [show (({ r.setCache name c with next } : Registry).cache other) =
    (r.setCache name c).cache other from rfl, cache_setCache]
  by_cases hother : other = name
  · rw [if_pos hother, Cache.find?_getOrCreate hc, hother]
    simp
  · rw [if_neg hother, if_neg fun h => hother h.1]

theorem find?_getOrCreate_self (h : r.getOrCreate name fields = .ok (shape, r')) :
    r'.find? name (Signature.text fields) = some shape := by
  rw [find?_getOrCreate h, if_pos ⟨rfl, rfl⟩]

theorem cache_getOrCreate (h : r.getOrCreate name fields = .ok (shape, r')) :
    Signature.Accepted fields ∧
      ((r.find? name (Signature.text fields) = some shape ∧
        (∀ other, r'.cache other = if other = name then (r.cache name).hit else r.cache other) ∧
          r'.next = r.next) ∨
        (r.find? name (Signature.text fields) = none ∧ shape = ⟨r.next, fields⟩ ∧
          (∀ other, r'.cache other =
            if other = name then (r.cache name).miss (Signature.text fields) shape
            else r.cache other) ∧ r'.next = r.next + 1)) := by
  obtain ⟨c, next, hc, rfl⟩ := getOrCreate_eq_ok.1 h
  have hcache : ∀ other, ({ r.setCache name c with next } : Registry).cache other =
      if other = name then c else r.cache other := fun other => cache_setCache r name other c
  obtain ⟨haccepted, ⟨hfound, rfl, hnext⟩ | ⟨hnone, hshape, rfl, hnext⟩⟩ :=
    Cache.getOrCreate_eq_ok.1 hc
  · exact ⟨haccepted, .inl ⟨hfound, hcache, hnext⟩⟩
  · exact ⟨haccepted, .inr ⟨hnone, hshape, hcache, hnext⟩⟩

theorem getOrCreate_cases (h : r.getOrCreate name fields = .ok (shape, r')) :
    Signature.Accepted fields ∧
      ((r.find? name (Signature.text fields) = some shape ∧ r'.next = r.next) ∨
        (r.find? name (Signature.text fields) = none ∧ shape = ⟨r.next, fields⟩ ∧
          r'.next = r.next + 1)) := by
  obtain ⟨haccepted, ⟨hfound, -, hnext⟩ | ⟨hnone, hshape, -, hnext⟩⟩ := cache_getOrCreate h
  · exact ⟨haccepted, .inl ⟨hfound, hnext⟩⟩
  · exact ⟨haccepted, .inr ⟨hnone, hshape, hnext⟩⟩

theorem getOrCreate_isOk_iff :
    (∃ shape r', r.getOrCreate name fields = .ok (shape, r')) ↔ Signature.Accepted fields := by
  constructor
  · rintro ⟨shape, r', h⟩
    exact (getOrCreate_cases h).1
  · intro h
    simp only [getOrCreate_eq_ok, Cache.getOrCreate_eq_ok]
    cases hfind : (r.cache name).find? (Signature.text fields) with
    | some shape => exact ⟨shape, _, _, _, ⟨h, .inl ⟨rfl, rfl, rfl⟩⟩, rfl⟩
    | none => exact ⟨_, _, _, _, ⟨h, .inr ⟨rfl, rfl, rfl, rfl⟩⟩, rfl⟩

theorem find?_getOrCreate_of_eq_some {other key : String} {found : Shape}
    (h : r.getOrCreate name fields = .ok (shape, r')) (hfound : r.find? other key = some found) :
    r'.find? other key = some found := by
  rw [find?_getOrCreate h]
  split
  · rename_i hself
    rw [hself.1, hself.2] at hfound
    obtain ⟨-, ⟨hshape, -⟩ | ⟨hnone, -⟩⟩ := getOrCreate_cases h
    · rw [← hshape, hfound]
    · rw [hfound] at hnone
      cases hnone
  · exact hfound

/-- A shape that is found after a successful request was found before it or has just been made. -/
theorem eq_some_of_find?_getOrCreate {other key : String} {found : Shape}
    (h : r.getOrCreate name fields = .ok (shape, r')) (hfound : r'.find? other key = some found) :
    r.find? other key = some found ∨ (found = ⟨r.next, fields⟩ ∧ r'.next = r.next + 1 ∧
      Signature.Accepted fields ∧ other = name ∧ key = Signature.text fields) := by
  rw [find?_getOrCreate h] at hfound
  split at hfound
  · rename_i hself
    cases hfound
    obtain ⟨haccepted, ⟨hshape, -⟩ | ⟨-, hshape, hnext⟩⟩ := getOrCreate_cases h
    · rw [hself.1, hself.2]
      exact .inl hshape
    · exact .inr ⟨hshape, hnext, haccepted, hself⟩
  · exact .inl hfound

theorem next_le_of_getOrCreate (h : r.getOrCreate name fields = .ok (shape, r')) :
    r.next ≤ r'.next := by
  obtain ⟨-, ⟨-, hnext⟩ | ⟨-, -, hnext⟩⟩ := getOrCreate_cases h
  · omega
  · omega

/-! ## Histories -/

structure Request where
  cache : String
  fields : List Field
  deriving DecidableEq, Repr

/-- The registry after a request; a refused one changes nothing. -/
def request (r : Registry) (q : Request) : Registry :=
  match r.getOrCreate q.cache q.fields with
  | .ok (_, r') => r'
  | .error _ => r

def after (qs : List Request) : Registry := qs.foldl request .empty

theorem after_append (qs qs' : List Request) : after (qs ++ qs') = qs'.foldl request (after qs) :=
  List.foldl_append

theorem request_of_eq_ok (h : r.getOrCreate name fields = .ok (shape, r')) :
    r.request ⟨name, fields⟩ = r' := by
  rw [request, h]

theorem request_of_not_accepted {q : Request} (h : ¬ Signature.Accepted q.fields) :
    r.request q = r := by
  unfold request
  split
  · rename_i shape r' hok
    exact absurd (getOrCreate_cases hok).1 h
  · rfl

/-- What successful requests keep, all requests keep. -/
theorem request_induction {motive : Registry → Prop} {q : Request} (h : motive r)
    (step : ∀ shape r', r.getOrCreate q.cache q.fields = .ok (shape, r') → motive r') :
    motive (r.request q) := by
  unfold request
  split
  · rename_i shape r' hok
    exact step shape r' hok
  · exact h

theorem find?_foldl_request {key : String} (qs : List Request) (h : r.find? name key = some shape) :
    (qs.foldl request r).find? name key = some shape := by
  induction qs generalizing r with
  | nil => exact h
  | cons q qs ih =>
    apply ih
    exact request_induction (motive := (·.find? name key = some shape)) h
      fun _ _ hok => find?_getOrCreate_of_eq_some hok h

/-! ## The invariant -/

/-- Each shape has accepted fields, is kept under their key, and has a number below the next one that
no shape under another key, or in another cache, has. -/
structure Sound (r : Registry) : Prop where
  accepted {name key : String} {shape : Shape} (h : r.find? name key = some shape) :
    Signature.Accepted shape.fields
  key_eq {name key : String} {shape : Shape} (h : r.find? name key = some shape) :
    Signature.text shape.fields = key
  id_lt {name key : String} {shape : Shape} (h : r.find? name key = some shape) : shape.id < r.next
  id_inj {name key name' key' : String} {shape shape' : Shape}
    (h : r.find? name key = some shape) (h' : r.find? name' key' = some shape')
    (hid : shape.id = shape'.id) : name = name' ∧ key = key'

theorem Sound.empty : Sound .empty where
  accepted h := nomatch h
  key_eq h := nomatch h
  id_lt h := nomatch h
  id_inj h := nomatch h

theorem Sound.getOrCreate (hr : r.Sound) (h : r.getOrCreate name fields = .ok (shape, r')) :
    r'.Sound where
  accepted hfound := by
    rcases eq_some_of_find?_getOrCreate h hfound with hold | ⟨rfl, -, haccepted, -⟩
    · exact hr.accepted hold
    · exact haccepted
  key_eq hfound := by
    rcases eq_some_of_find?_getOrCreate h hfound with hold | ⟨rfl, -, -, -, hkey⟩
    · exact hr.key_eq hold
    · exact hkey.symm
  id_lt hfound := by
    rcases eq_some_of_find?_getOrCreate h hfound with hold | ⟨rfl, hnext, -⟩
    · have hlt := hr.id_lt hold
      have hle := next_le_of_getOrCreate h
      omega
    · show r.next < r'.next
      omega
  id_inj hfound hfound' hid := by
    -- The number of a new shape is above all old ones, so only two old or two equal shapes remain.
    rcases eq_some_of_find?_getOrCreate h hfound with hold | ⟨rfl, -, -, hself⟩
    · rcases eq_some_of_find?_getOrCreate h hfound' with hold' | ⟨rfl, -⟩
      · exact hr.id_inj hold hold' hid
      · exact absurd hid (Nat.ne_of_lt (hr.id_lt hold))
    · rcases eq_some_of_find?_getOrCreate h hfound' with hold' | ⟨rfl, -, -, hself'⟩
      · exact absurd hid.symm (Nat.ne_of_lt (hr.id_lt hold'))
      · exact ⟨hself.1.trans hself'.1.symm, hself.2.trans hself'.2.symm⟩

theorem Sound.request (hr : r.Sound) (q : Request) : (r.request q).Sound :=
  request_induction hr fun _ _ h => hr.getOrCreate h

theorem sound_after (qs : List Request) : (after qs).Sound := by
  induction qs using List.reverseRecOn with
  | nil => exact .empty
  | append_singleton qs q ih =>
    rw [after_append]
    exact ih.request q

end Registry

end RecordQuery.Shape
