import RecordQuery.Proofs.Projection.Meaning
import RecordQuery.Proofs.Shape.Identity

/-!
# Projections that do not compile

A compilation can still be refused after a shape was asked of the cache, when the shape that was
found had been made for other fields with the same key. A shape that has just been made is never
refused, so no refused compilation has made one.

* `exists_assemble_eq_ok` : the expressions of a draft are arguments for a shape of the draft's
  fields;
* `compile_eq_error` : what a refused compilation did to the caches;
* `compile_error_keeps_shapes` : the shapes and numbers that it leaves.
-/

namespace RecordQuery.Projection

variable {s : Schema} {ms : List Mapping} {root : Param} {cache : String} {p : Projection}
  {r r' : Shape.Registry} {exprs : List (String × Expr)} {err : Error}

/-- A shape of the fields of a draft takes the expressions of the draft as its arguments. -/
theorem exists_assemble_eq_ok (h : Signature.Accepted (fields exprs)) (root : Param) (id : Nat) :
    ∃ p, assemble root ⟨id, fields exprs⟩ exprs = .ok p := by
  have hnodup : (exprs.map Prod.fst).Nodup := by
    rw [← map_name_fields]
    exact (Signature.accepted_iff.1 h).2
  refine ⟨_, assemble_eq_ok.2 ⟨exprs.map Prod.snd, ?_, rfl⟩⟩
  show List.Forall₂ _ (fields exprs) _
  rw [fields, List.forall₂_map_left_iff, List.forall₂_map_right_iff, List.forall₂_same]
  exact fun x hx => ⟨lookup_of_mem hnodup hx, rfl⟩

theorem compile_of_find?_eq_none {shape : Shape} (hdraft : draft s root ms = .ok exprs)
    (hshape : r.getOrCreate cache (fields exprs) = .ok (shape, r'))
    (hnone : r.find? cache (Signature.text (fields exprs)) = none) :
    ∃ p, assemble root shape exprs = .ok p ∧ compile s ms root cache r = (.ok p, r') := by
  obtain ⟨haccepted, ⟨hfound, -⟩ | ⟨-, rfl, -⟩⟩ := Shape.Registry.getOrCreate_cases hshape
  · rw [hnone] at hfound
    cases hfound
  · obtain ⟨p, hp⟩ := exists_assemble_eq_ok haccepted root r.next
    exact ⟨p, hp, compile_eq_ok.2 ⟨exprs, _, hdraft, hshape, hp⟩⟩

/-- A refused compilation did nothing to the caches, or found a shape. -/
theorem compile_eq_error (h : compile s ms root cache r = (.error err, r')) :
    r' = r ∨ r'.next = r.next ∧
      ∀ name, r'.cache name = if name = cache then (r.cache cache).hit else r.cache name := by
  cases hdraft : draft s root ms with
  | error e =>
    simp only [compile, hdraft] at h
    exact .inl (Prod.mk.inj h).2.symm
  | ok exprs =>
    cases hshape : r.getOrCreate cache (fields exprs) with
    | error e =>
      simp only [compile, hdraft, hshape] at h
      exact .inl (Prod.mk.inj h).2.symm
    | ok made =>
      obtain ⟨shape, r''⟩ := made
      obtain ⟨-, ⟨-, hcache, hnext⟩ | ⟨hnone, -⟩⟩ := Shape.Registry.cache_getOrCreate hshape
      · simp only [compile, hdraft, hshape] at h
        rw [← (Prod.mk.inj h).2]
        exact .inr ⟨hnext, hcache⟩
      · obtain ⟨p, -, hp⟩ := compile_of_find?_eq_none hdraft hshape hnone
        cases hp.symm.trans h

/-- **A compilation that is refused makes no shape.** Whatever refuses it, all caches hold the shapes
that they held, have counted as many misses, and the next shape has the same number; only a hit may
have been counted. And once a shape has been made, its arguments are found and fit. -/
theorem compile_error_keeps_shapes (s : Schema) (ms : List Mapping) (root : Param) (cache : String)
    (r : Shape.Registry) :
    (∀ err r', compile s ms root cache r = (.error err, r') → r'.next = r.next ∧
      ∀ name, (r'.cache name).entries = (r.cache name).entries ∧
        (r'.cache name).size = (r.cache name).size ∧
        (r'.cache name).misses = (r.cache name).misses) ∧
    ∀ exprs shape r', draft s root ms = .ok exprs →
      r.getOrCreate cache (fields exprs) = .ok (shape, r') →
      r.find? cache (Signature.text (fields exprs)) = none →
        ∃ p, assemble root shape exprs = .ok p ∧ compile s ms root cache r = (.ok p, r') := by
  refine ⟨fun err r' h => ?_, fun exprs shape r' => compile_of_find?_eq_none⟩
  obtain rfl | ⟨hnext, hcache⟩ := compile_eq_error h
  · exact ⟨rfl, fun _ => ⟨rfl, rfl, rfl⟩⟩
  · refine ⟨hnext, fun name => ?_⟩
    rw [hcache]
    split
    · rename_i hname
      rw [hname]
      exact ⟨rfl, rfl, rfl⟩
    · exact ⟨rfl, rfl, rfl⟩

/-! ## A projection that finds the shape of other fields -/

open Shape.Registry (narrow shared)

/-- Two record types, of which one is named like the other and a second field in a key. -/
def twins : Schema :=
  ⟨[⟨"Pair", [⟨"a", .record "A"⟩, ⟨"b", .int⟩]⟩, ⟨"A", []⟩, ⟨"A|b~int", []⟩], []⟩

def pair : Param := ⟨1, "root", .record "Pair"⟩

def copies : List Mapping := [.direct "a" "a", .direct "b" "b"]

/-- The shape of `narrow` is found, and its field has another type than the first copy. -/
theorem compile_copies_narrow : ∃ err,
    compile twins copies pair "people" (.after [narrow]) = (.error err, shared) ∧
      shared.next = (Shape.Registry.after [narrow]).next ∧
      (shared.cache "people").entries = ((Shape.Registry.after [narrow]).cache "people").entries := by
  obtain ⟨err, h⟩ : ∃ err,
      compile twins copies pair "people" (.after [narrow]) = (.error err, shared) := ⟨_, rfl⟩
  obtain ⟨hnext, hcaches⟩ := (compile_error_keeps_shapes twins copies pair "people" _).1 err shared h
  exact ⟨err, h, hnext, (hcaches "people").1⟩

end RecordQuery.Projection
