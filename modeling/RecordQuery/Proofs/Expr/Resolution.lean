import RecordQuery.Proofs.Expr.Paths

/-!
# How paths are resolved

A dotted path is followed segment by segment, from one type to the next. What it resolves to depends on
the types on the way only, and where it stops the error names the segment and the type there.

* `Schema.Declares`, `Schema.Leads` : a field of a record type, and the fields along a path;
* `Schema.Blocks` : a segment that cannot be followed from a type;
* `Schema.Knows` : a record type that is named is declared;
* `readSegment_eq_ok_iff`, `readSegment_of_blocks` : one segment is followed, or it is not;
* `foldlM_eq_ok_iff`, `leads_of_foldlM`, `foldlM_eq_error_iff` : several segments are;
* `resolve_compositional` : the whole path.
-/

namespace RecordQuery

/-! ## Types along a path -/

theorem Ty.recordName?_eq_some {ty : Ty} {name : String} :
    ty.recordName? = some name ↔ ty = .record name ∨ ty = .nullable (.record name) := by
  constructor
  · intro h
    have hunderlying := underlying_of_recordName h
    cases ty with
    | nullable inner => exact .inr (congrArg Ty.nullable hunderlying)
    | _ => exact .inl hunderlying
  · rintro (rfl | rfl) <;> rfl

namespace Schema

/-- The type is a declared record type, nullable or not, and this is its first field of the name. -/
def Declares (s : Schema) (ty : Ty) (name : String) (f : Field) : Prop :=
  ∃ record r, ty.recordName? = some record ∧ s.record? record = some r ∧ r.field? name = some f

/-- The names lead from a type to another one: each of them is not empty, and is declared in the record
type reached so far. -/
inductive Leads (s : Schema) : Ty → List String → Ty → Prop
  | nil (ty : Ty) : Leads s ty [] ty
  | cons {ty last : Ty} {name : String} {names : List String} {f : Field} (hname : name ≠ "")
      (hf : s.Declares ty name f) (h : Leads s f.ty names last) : Leads s ty (name :: names) last

inductive Blocks (s : Schema) (ty : Ty) : String → Prop
  | empty : Blocks s ty ""
  | noRecord {name : String} (h : ty.recordName? = none) : Blocks s ty name
  | undeclared {name record : String} {r : RecordType} (hty : ty.recordName? = some record)
      (hr : s.record? record = some r) (hf : r.field? name = none) : Blocks s ty name

/-- The type is no record type, nullable or not, that the catalog does not declare. -/
def Knows (s : Schema) (ty : Ty) : Prop := ∀ name, ty.recordName? = some name → s.record? name ≠ none

variable {s : Schema} {ty : Ty} {name : String} {f : Field}

theorem knows_of_checkTy (h : s.checkTy ty = .ok ()) : s.Knows ty := by
  intro name hname hnone
  have hrecord : s.checkTy ty = (s.record name).map fun _ => () := by
    rcases Ty.recordName?_eq_some.1 hname with rfl | rfl <;> rfl
  rw [hrecord, record, hnone] at h
  cases h

theorem Declares.knows (hs : s.validate = .ok ()) (h : s.Declares ty name f) : s.Knows f.ty := by
  obtain ⟨_, r, -, hr, hf⟩ := h
  have hfields := forM_eq_ok.1 hs r (List.mem_of_find?_eq_some hr)
  exact knows_of_checkTy (forM_eq_ok.1 hfields f (List.mem_of_find?_eq_some hf))

end Schema

namespace Expr

variable {s : Schema} {path name : String} {names : List String} {e e' : Expr} {err : Error}

/-! ## One segment -/

theorem readSegment_eq_ok_iff : readSegment s path e name = .ok e' ↔
    name ≠ "" ∧ ∃ f, s.Declares e.ty name f ∧ e' = .field e f.name f.ty := by
  rw [readSegment_eq_ok, Bool.eq_false_iff, ne_eq, String.isEmpty_iff]
  constructor
  · rintro ⟨hname, record, hrecord, r, hr, f, hf, rfl⟩
    exact ⟨hname, f, ⟨record, r, hrecord, hr, hf⟩, rfl⟩
  · rintro ⟨hname, f, ⟨record, r, hrecord, hr, hf⟩, rfl⟩
    exact ⟨hname, record, hrecord, r, hr, f, hf, rfl⟩

theorem readSegment_of_blocks (h : s.Blocks e.ty name) :
    readSegment s path e name = .error (.unresolved path name e.ty.text) := by
  unfold readSegment
  dsimp only
  cases h with
  | empty => rfl
  | noRecord hty =>
    rw [hty]
    split <;> rfl
  | undeclared hty hr hf =>
    rw [hty]
    dsimp only
    rw [Schema.record, hr, Option.elim_some, ok_bind, hf]
    split <;> rfl

theorem blocks_of_readSegment_eq_error (hty : s.Knows e.ty)
    (h : readSegment s path e name = .error err) :
    s.Blocks e.ty name ∧ err = .unresolved path name e.ty.text := by
  have hblocks : s.Blocks e.ty name := by
    by_cases hname : name = ""
    · rw [hname]
      exact .empty
    cases hrecord : e.ty.recordName? with
    | none => exact .noRecord hrecord
    | some record =>
      obtain ⟨r, hr⟩ := Option.ne_none_iff_exists'.1 (hty record hrecord)
      cases hf : r.field? name with
      | none => exact .undeclared hrecord hr hf
      | some f =>
        have hok : readSegment s path e name = .ok (.field e f.name f.ty) :=
          readSegment_eq_ok_iff.2 ⟨hname, f, ⟨record, r, hrecord, hr, hf⟩, rfl⟩
        cases h.symm.trans hok
  rw [readSegment_of_blocks hblocks] at h
  exact ⟨hblocks, (Except.error.inj h).symm⟩

/-! ## Several segments -/

/-- What segments resolve to does not depend on the path that they belong to. -/
theorem foldlM_eq_ok_iff (path path' : String) : names.foldlM (readSegment s path) e = .ok e' ↔
    names.foldlM (readSegment s path') e = .ok e' := by
  induction names generalizing e with
  | nil => exact Iff.rfl
  | cons name names ih => simp only [List.foldlM_cons, bind_eq_ok, readSegment_eq_ok_iff, ih]

/-- Segments that are followed lead to the type of the last field, and are written behind the root. -/
theorem leads_of_foldlM (h : names.foldlM (readSegment s path) e = .ok e') :
    s.Leads e.ty names e'.ty ∧ e'.text = Text.joined "." (e.text :: names) := by
  induction names generalizing e with
  | nil =>
    cases h
    exact ⟨.nil _, rfl⟩
  | cons name names ih =>
    rw [List.foldlM_cons, bind_eq_ok] at h
    obtain ⟨next, hstep, hrest⟩ := h
    obtain ⟨hname, f, hf, rfl⟩ := readSegment_eq_ok_iff.1 hstep
    obtain ⟨hleads, htext⟩ := ih hrest
    obtain ⟨_, r, -, -, hfield⟩ := id hf
    refine ⟨.cons hname hf hleads, ?_⟩
    rw [htext, text, RecordType.name_of_field? hfield, Text.joined_append_cons]
    rfl

theorem exists_foldlM_of_leads {last : Ty} (path : String) (h : s.Leads e.ty names last) :
    ∃ e', names.foldlM (readSegment s path) e = .ok e' ∧ e'.ty = last := by
  generalize hty : e.ty = ty at h
  induction h generalizing e with
  | nil ty => exact ⟨e, rfl, hty⟩
  | @cons ty last name names f hname hf _ ih =>
    have hstep : readSegment s path e name = .ok (.field e f.name f.ty) :=
      readSegment_eq_ok_iff.2 ⟨hname, f, hty ▸ hf, rfl⟩
    obtain ⟨e', he', hlast⟩ := ih (e := .field e f.name f.ty) rfl
    refine ⟨e', ?_, hlast⟩
    rw [List.foldlM_cons, hstep, ok_bind, he']

/-- From a known type of a valid catalog, segments are not followed exactly if one of them blocks the type
that the ones before it lead to. -/
theorem foldlM_eq_error_iff (hs : s.validate = .ok ()) (hty : s.Knows e.ty) :
    names.foldlM (readSegment s path) e = .error err ↔ ∃ before name after ty,
      names = before ++ name :: after ∧ s.Leads e.ty before ty ∧ s.Blocks ty name ∧
        err = .unresolved path name ty.text := by
  constructor
  · intro h
    induction names generalizing e with
    | nil => cases h
    | cons name names ih =>
      rw [List.foldlM_cons] at h
      cases hstep : readSegment s path e name with
      | error err' =>
        obtain ⟨hblocks, herr⟩ := blocks_of_readSegment_eq_error hty hstep
        rw [hstep] at h
        cases h
        exact ⟨[], name, names, e.ty, rfl, .nil _, hblocks, herr⟩
      | ok next =>
        rw [hstep, ok_bind] at h
        obtain ⟨hname, f, hf, rfl⟩ := readSegment_eq_ok_iff.1 hstep
        have hnext : s.Knows (Expr.field e f.name f.ty).ty := hf.knows hs
        obtain ⟨before, stop, after, ty, hnames, hleads, hblocks⟩ := ih hnext h
        exact ⟨name :: before, stop, after, ty, by rw [hnames]; rfl, .cons hname hf hleads, hblocks⟩
  · rintro ⟨before, name, after, ty, rfl, hleads, hblocks, rfl⟩
    obtain ⟨stop, hstop, rfl⟩ := exists_foldlM_of_leads path hleads
    rw [List.foldlM_append, hstop, ok_bind, List.foldlM_cons, readSegment_of_blocks hblocks, error_bind]

/-! ## Paths -/

theorem joined_cons_split (root path : String) :
    Text.joined "." (root :: Text.split path ".") = root ++ "." ++ path := by
  obtain ⟨first, rest, hsplit⟩ : ∃ first rest, Text.split path "." = first :: rest := by
    have hne : Text.split path "." ≠ [] := by
      rw [Text.split_eq_map_splitOn rfl]
      exact fun h => List.splitOn_ne_nil '.' _ (List.map_eq_nil_iff.1 h)
    exact List.exists_cons_of_ne_nil hne
  rw [hsplit, Text.joined, ← hsplit, Text.joined_split rfl]

/-- **Paths are resolved segment by segment.** Two paths with a dot between them resolve to what the second
one resolves to behind the first one. A path that resolves leads from the type of its root to the type of
the expression, and is written behind the root. In a valid catalog, from a declared record type, a path
does not resolve exactly if one of its segments blocks the type that the segments before it lead to, and
the error gives the path, this segment and this type. -/
theorem resolve_compositional (s : Schema) (root : Expr) :
    (∀ a b e, resolve s root (a ++ "." ++ b) = .ok e ↔
      ∃ m, resolve s root a = .ok m ∧ resolve s m b = .ok e) ∧
    (∀ a e, resolve s root a = .ok e →
      s.Leads root.ty (Text.split a ".") e.ty ∧ e.text = root.text ++ "." ++ a) ∧
    (s.validate = .ok () → ∀ name, root.ty.recordName? = some name → s.record? name ≠ none →
      ∀ a err, resolve s root a = .error err ↔ ∃ before segment after ty,
        Text.split a "." = before ++ segment :: after ∧ s.Leads root.ty before ty ∧
          s.Blocks ty segment ∧ err = .unresolved a segment ty.text) := by
  refine ⟨fun a b e => ?_, fun a e h => ?_, fun hs name hname hrecord a err => ?_⟩
  · unfold resolve
    rw [Text.split_append rfl, List.foldlM_append, bind_eq_ok]
    refine exists_congr fun m => ?_
    rw [foldlM_eq_ok_iff (a ++ "." ++ b) a, foldlM_eq_ok_iff (a ++ "." ++ b) b]
  · obtain ⟨hleads, htext⟩ := leads_of_foldlM h
    exact ⟨hleads, by rw [htext, joined_cons_split]⟩
  · have hknows : s.Knows root.ty := fun other hother => by
      cases hname.symm.trans hother
      exact hrecord
    exact foldlM_eq_error_iff hs hknows

/-- The owner of a card has a card. An empty segment behind it stops the path at the card. -/
theorem resolve_ownerCard :
    (∃ m, resolve people (.param person) "Card.Owner" = .ok m ∧
      ∃ e, resolve people m "Card" = .ok e ∧ e.text = "x.Card.Owner.Card") ∧
    people.validate = .ok () ∧
    resolve people (.param person) "Card.Owner.Card..Age" =
      .error (.unresolved "Card.Owner.Card..Age" "" "Card?") := by
  obtain ⟨happend, hleads, herror⟩ := resolve_compositional people (.param person)
  have hcard : ∃ e, resolve people (.param person) ("Card.Owner" ++ "." ++ "Card") = .ok e := ⟨_, rfl⟩
  have hvalid : people.validate = .ok () := rfl
  refine ⟨?_, hvalid, ?_⟩
  · obtain ⟨e, he⟩ := hcard
    obtain ⟨m, hm, hme⟩ := (happend "Card.Owner" "Card" e).1 he
    exact ⟨m, hm, e, hme, (hleads _ _ he).2⟩
  · obtain ⟨e, he⟩ := hcard
    have hlast : e.ty = .nullable (.record "Card") := by
      cases he
      rfl
    refine (herror hvalid "Person" rfl nofun _ _).2
      ⟨["Card", "Owner", "Card"], "", ["Age"], .nullable (.record "Card"), rfl, ?_, .empty, rfl⟩
    exact hlast ▸ (hleads _ _ he).1

end Expr

end RecordQuery
