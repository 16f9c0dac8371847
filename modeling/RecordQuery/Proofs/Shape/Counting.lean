import Mathlib.Data.Finset.Card
import Mathlib.Data.List.Nodup
import RecordQuery.Proofs.Shape.History

/-!
# Counts and numbers of shapes

What the counts of a cache say about the history of requests, and which shapes their numbers name.

* `Cache.Counts` : the counts of a cache to which fields of some keys were asked;
* `Registry.asked`, `Registry.askedKeys` : the keys of the accepted requests of a history;
* `Registry.Accounts`, `accounts_after` : the counts of all caches, and the next number, after a
  history;
* `Registry.Synthesized`, `synthesized_iff`, `get?_eq_some_iff` : a cache finds by number the shapes
  that it made, and no others;
* `counts_after` : all of this together.
-/

namespace RecordQuery.Shape

theorem card_toFinset_concat {α : Type} [DecidableEq α] (xs : List α) (x : α) :
    (xs ++ [x]).toFinset.card = if x ∈ xs then xs.toFinset.card else xs.toFinset.card + 1 := by
  have hinsert : (xs ++ [x]).toFinset = insert x xs.toFinset := by
    ext y
    simp
  rw [hinsert, Finset.card_insert_eq_ite]
  simp only [List.mem_toFinset]

/-! ## The counts of one cache -/

namespace Cache
variable {c : Cache} {asked : List String} {key : String} {shape : Shape}

def keys (c : Cache) : List String := c.entries.map Prod.fst

def ids (c : Cache) : List Nat := c.entries.map (·.2.id)

theorem find?_eq_none_iff : c.find? key = none ↔ key ∉ c.keys := by
  unfold find? keys
  rw [List.lookup_eq_none_iff, List.mem_map]
  constructor
  · rintro h ⟨x, hx, rfl⟩
    exact bne_iff_ne.1 (h x hx) rfl
  · intro h x hx
    exact bne_iff_ne.2 fun heq => h ⟨x, hx, heq.symm⟩

theorem find?_eq_some_iff (h : c.keys.Nodup) : c.find? key = some shape ↔ (key, shape) ∈ c.entries := by
  constructor
  · intro hfind
    obtain ⟨before, rest, hentries, -⟩ := List.lookup_eq_some_iff.1 hfind
    rw [hentries]
    simp
  · exact lookup_of_mem h

theorem mem_keys_of_find? (h : c.find? key = some shape) : key ∈ c.keys := by
  by_contra hkey
  rw [find?_eq_none_iff.2 hkey] at h
  cases h

/-- The counts of a cache of which fields of the keys, in this order, were asked: it holds one shape
for each key, made at the first request for it. -/
structure Counts (c : Cache) (asked : List String) : Prop where
  nodup : c.keys.Nodup
  mem_keys (key : String) : key ∈ c.keys ↔ key ∈ asked
  misses : c.misses = c.size
  total : c.hits + c.misses = asked.length

theorem Counts.size (h : c.Counts asked) : c.size = asked.toFinset.card := by
  have hkeys : asked.toFinset = c.keys.toFinset := by
    ext key
    rw [List.mem_toFinset, List.mem_toFinset, h.mem_keys]
  rw [hkeys, List.toFinset_card_of_nodup h.nodup]
  exact (List.length_map Prod.fst).symm

theorem Counts.empty : Cache.empty.Counts [] where
  nodup := .nil
  mem_keys _ := Iff.rfl
  misses := rfl
  total := rfl

theorem Counts.hit (h : c.Counts asked) (hkey : key ∈ c.keys) : c.hit.Counts (asked ++ [key]) where
  nodup := h.nodup
  mem_keys other := by
    rw [List.mem_append, List.mem_singleton, ← h.mem_keys]
    exact ⟨.inl, fun hother => hother.elim (fun hold => hold) fun heq => heq ▸ hkey⟩
  misses := h.misses
  total := by
    have htotal := h.total
    rw [List.length_append, List.length_singleton, ← htotal]
    show c.hits + 1 + c.misses = _
    omega

theorem Counts.miss (h : c.Counts asked) (hkey : key ∉ c.keys) (shape : Shape) :
    (c.miss key shape).Counts (asked ++ [key]) := by
  have hkeys : (c.miss key shape).keys = c.keys ++ [key] := List.map_append
  refine ⟨?_, fun other => ?_, ?_, ?_⟩
  · rw [hkeys]
    exact h.nodup.append (List.nodup_singleton key) (List.disjoint_singleton.2 hkey)
  · rw [hkeys, List.mem_append, List.mem_append, h.mem_keys]
  · show c.misses + 1 = (c.entries ++ [(key, shape)]).length
    rw [h.misses, List.length_append]
    rfl
  · rw [List.length_append, List.length_singleton, ← h.total]
    rfl

end Cache

namespace Registry
variable {r r' : Registry} {name key : String} {fields : List Field} {shape : Shape}
  {qs : List Request}

/-! ## The counts of all caches -/

def asked (qs : List Request) : List (String × String) :=
  (qs.filter fun q => decide (Signature.Accepted q.fields)).map fun q =>
    (q.cache, Signature.text q.fields)

def askedKeys (name : String) (qs : List Request) : List String :=
  ((asked qs).filter (·.1 == name)).map Prod.snd

theorem mem_askedKeys : key ∈ askedKeys name qs ↔ (name, key) ∈ asked qs := by
  unfold askedKeys
  simp

theorem asked_concat (qs : List Request) {q : Request} (h : Signature.Accepted q.fields) :
    asked (qs ++ [q]) = asked qs ++ [(q.cache, Signature.text q.fields)] := by
  unfold asked
  rw [List.filter_append, List.filter_singleton, decide_eq_true h, List.map_append]
  rfl

theorem asked_concat_of_not (qs : List Request) {q : Request} (h : ¬ Signature.Accepted q.fields) :
    asked (qs ++ [q]) = asked qs := by
  unfold asked
  rw [List.filter_append, List.filter_singleton, decide_eq_false h]
  simp

theorem askedKeys_concat (qs : List Request) {q : Request} (h : Signature.Accepted q.fields)
    (name : String) : askedKeys name (qs ++ [q]) =
      if name = q.cache then askedKeys name qs ++ [Signature.text q.fields] else askedKeys name qs := by
  unfold askedKeys
  rw [asked_concat qs h, List.filter_append, List.filter_singleton]
  by_cases hname : name = q.cache
  · rw [if_pos hname, hname]
    simp
  · rw [if_neg hname, beq_eq_false_iff_ne.2 (Ne.symm hname)]
    simp

/-- The counts of all caches after the history, and how many shapes have been numbered. -/
structure Accounts (qs : List Request) (r : Registry) : Prop where
  counts (name : String) : (r.cache name).Counts (askedKeys name qs)
  next : r.next = (asked qs).toFinset.card + 1

/-- A change of one cache that counts the request there keeps the counts of all caches. -/
theorem counts_concat (h : ∀ name, (r.cache name).Counts (askedKeys name qs)) {q : Request}
    (haccepted : Signature.Accepted q.fields) {c : Cache}
    (hc : c.Counts (askedKeys q.cache qs ++ [Signature.text q.fields]))
    (hcache : ∀ other, r'.cache other = if other = q.cache then c else r.cache other)
    (name : String) : (r'.cache name).Counts (askedKeys name (qs ++ [q])) := by
  rw [hcache, askedKeys_concat qs haccepted]
  by_cases hname : name = q.cache
  · rw [if_pos hname, if_pos hname, hname]
    exact hc
  · rw [if_neg hname, if_neg hname]
    exact h name

theorem Accounts.request (h : Accounts qs r) (q : Request) : Accounts (qs ++ [q]) (r.request q) := by
  by_cases haccepted : Signature.Accepted q.fields
  · obtain ⟨shape, r', hok⟩ := getOrCreate_isOk_iff.2 haccepted
    rw [show r.request q = r' from request_of_eq_ok hok]
    have hmem : (q.cache, Signature.text q.fields) ∈ asked qs ↔
        Signature.text q.fields ∈ (r.cache q.cache).keys := by
      rw [(h.counts q.cache).mem_keys, mem_askedKeys]
    obtain ⟨-, ⟨hfound, hcache, hnext⟩ | ⟨hnone, -, hcache, hnext⟩⟩ := cache_getOrCreate hok
    · have hkey : Signature.text q.fields ∈ (r.cache q.cache).keys := Cache.mem_keys_of_find? hfound
      refine ⟨counts_concat h.counts haccepted ((h.counts q.cache).hit hkey) hcache, ?_⟩
      rw [asked_concat qs haccepted, card_toFinset_concat, if_pos (hmem.2 hkey), hnext, h.next]
    · have hkey : Signature.text q.fields ∉ (r.cache q.cache).keys := Cache.find?_eq_none_iff.1 hnone
      refine ⟨counts_concat h.counts haccepted ((h.counts q.cache).miss hkey shape) hcache, ?_⟩
      rw [asked_concat qs haccepted, card_toFinset_concat, if_neg (mt hmem.1 hkey), hnext, h.next]
  · rw [request_of_not_accepted haccepted]
    refine ⟨fun name => ?_, ?_⟩
    · rw [askedKeys, asked_concat_of_not qs haccepted]
      exact h.counts name
    · rw [asked_concat_of_not qs haccepted, h.next]

theorem accounts_after (qs : List Request) : Accounts qs (after qs) := by
  induction qs using List.reverseRecOn with
  | nil => exact ⟨fun _ => .empty, rfl⟩
  | append_singleton qs q ih =>
    rw [after_append]
    exact ih.request q

/-! ## Shapes by number -/

/-- The history has a request to the cache that found no shape under its key and made this one. -/
def Synthesized (name : String) (shape : Shape) (qs : List Request) : Prop :=
  ∃ before fields later r', qs = before ++ ⟨name, fields⟩ :: later ∧
    (after before).find? name (Signature.text fields) = none ∧
    (after before).getOrCreate name fields = .ok (shape, r')

theorem Synthesized.concat (h : Synthesized name shape qs) (q : Request) :
    Synthesized name shape (qs ++ [q]) := by
  obtain ⟨before, fields, later, r', rfl, hnone, hok⟩ := h
  exact ⟨before, fields, later ++ [q], r', by simp, hnone, hok⟩

theorem synthesized_iff :
    Synthesized name shape qs ↔ ∃ key, (after qs).find? name key = some shape := by
  constructor
  · rintro ⟨before, fields, later, r', rfl, -, hok⟩
    refine ⟨Signature.text fields, ?_⟩
    rw [after_append, List.foldl_cons, request_of_eq_ok hok]
    exact find?_foldl_request later (find?_getOrCreate_self hok)
  · rintro ⟨key, hfind⟩
    induction qs using List.reverseRecOn with
    | nil => cases hfind
    | append_singleton qs q ih =>
      rw [after_append] at hfind
      by_cases haccepted : Signature.Accepted q.fields
      · obtain ⟨made, r', hok⟩ := getOrCreate_isOk_iff.2 haccepted
        rw [List.foldl_cons, request_of_eq_ok hok] at hfind
        rcases eq_some_of_find?_getOrCreate hok hfind with hold | ⟨rfl, hnext, -, rfl, -⟩
        · exact (ih hold).concat q
        · obtain ⟨-, ⟨-, hsame⟩ | ⟨hnone, rfl, -⟩⟩ := getOrCreate_cases hok
          · omega
          · exact ⟨qs, q.fields, [], r', rfl, hnone, hok⟩
      · rw [List.foldl_cons, request_of_not_accepted haccepted] at hfind
        exact (ih hfind).concat q

theorem find?_eq_some_iff (h : (r.cache name).keys.Nodup) :
    r.find? name key = some shape ↔ (key, shape) ∈ (r.cache name).entries :=
  Cache.find?_eq_some_iff h

theorem get?_eq_some_iff (hr : r.Sound) (hkeys : (r.cache name).keys.Nodup) {id : Nat} :
    (r.cache name).get? id = some shape ↔ (∃ key, r.find? name key = some shape) ∧ shape.id = id := by
  constructor
  · intro hget
    obtain ⟨x, hx, rfl⟩ := Option.map_eq_some_iff.1 hget
    exact ⟨⟨x.1, (find?_eq_some_iff hkeys).2 (List.mem_of_find?_eq_some hx)⟩,
      by simpa using List.find?_some hx⟩
  · rintro ⟨⟨key, hfind⟩, rfl⟩
    have hmem := (find?_eq_some_iff hkeys).1 hfind
    cases hx : (r.cache name).entries.find? (·.2.id == shape.id) with
    | none =>
      have hne := List.find?_eq_none.1 hx _ hmem
      simp at hne
    | some x =>
      have hid : x.2.id = shape.id := by simpa using List.find?_some hx
      have hxfind : r.find? name x.1 = some x.2 :=
        (find?_eq_some_iff hkeys).2 (List.mem_of_find?_eq_some hx)
      rw [(hr.id_inj hxfind hfind hid).2, hfind] at hxfind
      unfold Cache.get?
      rw [hx, Option.map_some, Option.some.inj hxfind]

theorem nodup_ids (hr : r.Sound) (hkeys : (r.cache name).keys.Nodup) :
    (r.cache name).ids.Nodup := by
  refine List.Nodup.map_on (fun x hx y hy hid => ?_) hkeys.of_map
  refine List.inj_on_of_nodup_map hkeys hx hy ?_
  exact (hr.id_inj ((find?_eq_some_iff hkeys).2 hx) ((find?_eq_some_iff hkeys).2 hy) hid).2

theorem disjoint_ids (hr : r.Sound) (hkeys : ∀ name, (r.cache name).keys.Nodup) {other : String}
    (hother : other ≠ name) : (r.cache name).ids.Disjoint (r.cache other).ids := by
  intro id hid hid'
  obtain ⟨x, hx, rfl⟩ := List.mem_map.1 hid
  obtain ⟨y, hy, hxy⟩ := List.mem_map.1 hid'
  have hxfind : r.find? name x.1 = some x.2 := (find?_eq_some_iff (hkeys name)).2 hx
  have hyfind : r.find? other y.1 = some y.2 := (find?_eq_some_iff (hkeys other)).2 hy
  exact hother (hr.id_inj hyfind hxfind hxy).1

theorem getOrCreate_again (h : (after qs).getOrCreate name fields = .ok (shape, r'))
    (later : List Request) : ∃ r'',
      (after (qs ++ ⟨name, fields⟩ :: later)).getOrCreate name fields = .ok (shape, r'') := by
  have hfind : (after (qs ++ ⟨name, fields⟩ :: later)).find? name (Signature.text fields) =
      some shape := by
    rw [after_append, List.foldl_cons, request_of_eq_ok h]
    exact find?_foldl_request later (find?_getOrCreate_self h)
  obtain ⟨found, r'', hok⟩ := getOrCreate_isOk_iff.2 (getOrCreate_cases h).1
  obtain ⟨-, ⟨hfound, -⟩ | ⟨hnone, -⟩⟩ := getOrCreate_cases hok
  · cases Option.some.inj (hfind.symm.trans hfound)
    exact ⟨r'', hok⟩
  · rw [hfind] at hnone
    cases hnone

/-- **The counts and the numbers of a cache after any history of requests to any caches.** The
misses and the shapes are as many as the different keys of the accepted requests to the cache, and
hits and misses together as many as these requests; a request is accepted on its fields alone, and a
refused one changes nothing. A request that got a shape gets it again, whatever is asked between. By
number the cache finds the shapes that it made itself. No two shapes of the caches have one number,
and no number is above the count of shapes made in all, so a counter of 32 bits would give the same
numbers to the first `2 ^ 32 - 1` shapes. -/
theorem counts_after (qs : List Request) (name : String) :
    (((after qs).cache name).misses = (askedKeys name qs).toFinset.card ∧
      ((after qs).cache name).size = (askedKeys name qs).toFinset.card ∧
      ((after qs).cache name).hits + ((after qs).cache name).misses = (askedKeys name qs).length) ∧
    (∀ fields, (∃ shape r', (after qs).getOrCreate name fields = .ok (shape, r')) ↔
      Signature.Accepted fields) ∧
    (∀ fields err, (after qs).getOrCreate name fields = .error err →
      after (qs ++ [⟨name, fields⟩]) = after qs) ∧
    (∀ fields shape r', (after qs).getOrCreate name fields = .ok (shape, r') → ∀ later, ∃ r'',
      (after (qs ++ ⟨name, fields⟩ :: later)).getOrCreate name fields = .ok (shape, r'')) ∧
    (∀ id shape, ((after qs).cache name).get? id = some shape ↔
      Synthesized name shape qs ∧ shape.id = id) ∧
    ((after qs).cache name).ids.Nodup ∧
    (∀ other, other ≠ name →
      ((after qs).cache name).ids.Disjoint ((after qs).cache other).ids) ∧
    ∀ id ∈ ((after qs).cache name).ids, id ≤ (asked qs).toFinset.card := by
  have hsound := sound_after qs
  have haccounts := accounts_after qs
  have hcounts := haccounts.counts name
  have hkeys : ∀ other, ((after qs).cache other).keys.Nodup := fun other =>
    (haccounts.counts other).nodup
  refine ⟨⟨hcounts.misses.trans hcounts.size, hcounts.size, hcounts.total⟩,
    fun _ => getOrCreate_isOk_iff, fun fields err herr => ?_,
    fun _ _ _ hok later => getOrCreate_again hok later, fun id shape => ?_,
    nodup_ids hsound (hkeys name), fun other hother => disjoint_ids hsound hkeys hother,
    fun id hid => ?_⟩
  · rw [after_append]
    show (after qs).request ⟨name, fields⟩ = after qs
    rw [request, herr]
  · rw [get?_eq_some_iff hsound (hkeys name), synthesized_iff]
  · obtain ⟨x, hx, rfl⟩ := List.mem_map.1 hid
    have hlt := hsound.id_lt ((find?_eq_some_iff (hkeys name)).2 hx)
    rw [haccounts.next] at hlt
    exact Nat.le_of_lt_succ hlt

/-- The second and the last request find their shapes, and the third one is refused. -/
def visits : List Request :=
  [⟨"people", [⟨"Age", .int⟩]⟩, ⟨"people", [⟨"Age", .int⟩]⟩, ⟨"people", [⟨"", .int⟩]⟩,
    ⟨"pets", [⟨"Age", .int⟩]⟩, ⟨"pets", [⟨"Name", .string⟩]⟩, ⟨"pets", [⟨"Age", .int⟩]⟩]

/-- The caches give the numbers 1, and 2 and 3. -/
theorem counts_visits :
    ((after visits).cache "people").misses = 1 ∧ ((after visits).cache "people").hits = 1 ∧
    ((after visits).cache "pets").size = 2 ∧ ((after visits).cache "pets").hits = 1 ∧
    Synthesized "pets" ⟨3, [⟨"Name", .string⟩]⟩ visits ∧
    ¬ Synthesized "people" ⟨3, [⟨"Name", .string⟩]⟩ visits := by
  obtain ⟨⟨hmisses, -, htotal⟩, -, -, -, hget, -⟩ := counts_after visits "people"
  obtain ⟨⟨hmisses', hsize, htotal'⟩, -, -, -, hget', -⟩ := counts_after visits "pets"
  have hpeople : askedKeys "people" visits = ["Age~int", "Age~int"] := rfl
  have hpets : askedKeys "pets" visits = ["Age~int", "Name~string", "Age~int"] := rfl
  rw [hpeople] at hmisses htotal
  rw [hpets] at hmisses' hsize htotal'
  have hone : ["Age~int", "Age~int"].toFinset.card = 1 := by decide
  have htwo : ["Age~int", "Name~string", "Age~int"].toFinset.card = 2 := by decide
  rw [hmisses, hone] at htotal
  rw [hmisses', htwo] at htotal'
  refine ⟨hmisses.trans hone, Nat.add_right_cancel htotal, hsize.trans htwo,
    Nat.add_right_cancel htotal', ((hget' 3 _).1 rfl).1, fun hmade => ?_⟩
  cases (hget 3 _).2 ⟨hmade, rfl⟩

end Registry

end RecordQuery.Shape
