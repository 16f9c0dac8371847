import RecordQuery.Proofs.Optional
import RecordQuery.Proofs.Schema.TypeNames

/-!
# The order of declarations

All names are declared before a type is read, so types may refer to what is declared later, and the
order of the declarations does not matter.

* `find?_eq_of_perm`, `find?_foldl_replaced` : lists searched by key, and declarations in place of others;
* `Json.Raw.Reordered` : documents that differ in the order of the items of their lists only;
* `Schema.Document.SameEntries`, `Document.rel_ofRaw?` : what such documents say;
* `Schema.SameAnswers` : catalogs in which every look-up has one answer;
* `Ty.readChars_congr` : types are read alike in catalogs that declare the same names;
* `Document.SameEntries.names`, `ofDocument_of_sameEntries` : the two passes;
* `Schema.read_reordered` : both documents describe such catalogs, or both are refused.
-/

namespace RecordQuery

/-! ## Lists searched by key -/

section Keyed
variable {α : Type} {key : α → String} {xs ys : List α}

theorem find?_eq_of_perm (h : xs.Perm ys) (hn : (xs.map key).Nodup) (k : String) :
    xs.find? (key · == k) = ys.find? (key · == k) := by
  induction h with
  | nil => rfl
  | cons x _ ih => rw [List.find?_cons, List.find?_cons, ih (List.nodup_cons.1 hn).2]
  | swap x y zs =>
    -- At most one of the first two elements has the key.
    have hne : key y ≠ key x := fun h => (List.nodup_cons.1 hn).1 (h ▸ List.mem_cons_self)
    by_cases hx : key x = k
    · simp [hx, hx ▸ hne]
    · have hxk : (key x == k) = false := by simp [hx]
      simp only [List.find?_cons, hxk]
  | trans h _ ih ih' => rw [ih hn, ih' ((h.map key).nodup_iff.1 hn)]

/-- The list with an element in place of any earlier one of its key. -/
def replaced (key : α → String) (xs : List α) (x : α) : List α := xs.filter (key · != key x) ++ [x]

theorem find?_replaced (xs : List α) (x : α) (k : String) : (replaced key xs x).find? (key · == k) =
    if key x = k then some x else xs.find? (key · == k) := by
  rw [replaced, List.find?_append, List.find?_filter]
  by_cases hx : key x = k
  · have hnone : xs.find? (fun y => decide ((key y != key x) = true ∧ (key y == k) = true)) = none := by
      simp [hx]
    rw [hnone, if_pos hx]
    simp [hx]
  · have hsame : xs.find? (fun y => decide ((key y != key x) = true ∧ (key y == k) = true)) =
        xs.find? (key · == k) := by
      congr 1
      funext y
      by_cases hy : key y = k <;> simp [hy, Ne.symm hx]
    rw [hsame, if_neg hx]
    simp [hx]

/-- Elements of distinct keys come in place of all others. -/
theorem find?_foldl_replaced (hn : (ys.map key).Nodup) (xs : List α) (k : String) :
    (ys.foldl (replaced key) xs).find? (key · == k) =
      (ys.find? (key · == k)).or (xs.find? (key · == k)) := by
  induction ys generalizing xs with
  | nil => rfl
  | cons y ys ih =>
    obtain ⟨hy, hn⟩ := List.nodup_cons.1 hn
    rw [List.foldl_cons, ih hn, find?_replaced, List.find?_cons]
    by_cases hk : key y = k
    · have hnone : ys.find? (key · == k) = none := by
        simp only [List.find?_eq_none, beq_iff_eq]
        exact fun x hx heq => hy (hk ▸ heq ▸ List.mem_map_of_mem hx)
      simp [hk, hnone]
    · have hyk : (key y == k) = false := by simp [hk]
      rw [if_neg hk, hyk]

end Keyed

theorem mapM_eq_ok_of_perm {ε α β : Type} {f : α → Except ε β} {xs ys : List α} {as : List β}
    (h : xs.Perm ys) (has : xs.mapM f = .ok as) : ∃ bs, ys.mapM f = .ok bs ∧ as.Perm bs := by
  obtain ⟨bs, hbs, hperm⟩ := List.perm_comp_forall₂ h.symm (mapM_eq_ok.1 has)
  exact ⟨bs, mapM_eq_ok.2 hbs, hperm.symm⟩

/-! ## Documents in another order -/

namespace Json.Raw

/-- The same document, or a list of the same items in another order. -/
inductive SameItems : Raw → Raw → Prop
  | refl (r : Raw) : SameItems r r
  | array {items items' : List Raw} (h : items.Perm items') : SameItems (.array items) (.array items')

def SameMember {κ : Type} (m m' : κ × Raw) : Prop := m.1 = m'.1 ∧ SameItems m.2 m'.2

/-- The parts of the documents are the same, or lists of the same items in another order. -/
inductive Reordered : Raw → Raw → Prop
  | object {members members' : List (List Piece × Raw)} (h : List.Forall₂ SameMember members members') :
      Reordered (.object members) (.object members')
  | array {items items' : List Raw} (h : List.Forall₂ SameItems items items') :
      Reordered (.array items) (.array items')

variable {r r' : Raw}

theorem rel_keyed? {members members' : List (List Piece × Raw)}
    (h : List.Forall₂ SameMember members members') :
    Option.Rel (List.Forall₂ SameMember) (keyed? members) (keyed? members') := by
  refine rel_mapM h ?_
  rintro ⟨key, item⟩ ⟨_, item'⟩ ⟨rfl, hitem⟩
  dsimp only
  cases decode? key with
  | none => exact .none
  | some cs => exact .some ⟨rfl, hitem⟩

theorem rel_slot? {entries entries' : List (String × Raw)}
    (h : List.Forall₂ SameMember entries entries') (key : String) :
    Option.Rel (Option.Rel SameItems) (slot? entries key) (slot? entries' key) := by
  have hkey : ∀ e e' : String × Raw, SameMember e e' → ((e.1 == key) = true ↔ (e'.1 == key) = true) := by
    rintro ⟨_, _⟩ ⟨_, _⟩ ⟨rfl, -⟩
    exact Iff.rfl
  have hfound : List.Forall₂ SameMember (entries.filter (·.1 == key)) (entries'.filter (·.1 == key)) :=
    List.rel_filter hkey h
  unfold slot?
  generalize entries.filter (·.1 == key) = found at hfound
  generalize entries'.filter (·.1 == key) = found' at hfound
  cases hfound with
  | nil => exact .some .none
  | cons he hrest =>
    cases hrest with
    | nil => exact .some (.some he.2)
    | cons _ _ => exact .none

/-- The slots of such documents hold the same, or lists of the same items. -/
theorem Reordered.rel_slots? (h : Reordered r r') (keys : List String) :
    Option.Rel (List.Forall₂ (Option.Rel SameItems)) (r.slots? keys) (r'.slots? keys) := by
  cases h with
  | object h =>
    refine rel_bind (rel_keyed? h) fun entries entries' hentries => ?_
    refine rel_mapM (R := Eq) (List.forall₂_same.2 fun _ _ => rfl) ?_
    rintro key _ rfl
    exact rel_slot? hentries key
  | @array items items' h =>
    have hslots (n : Nat) : List.Forall₂ (Option.Rel SameItems) (items.map some ++ List.replicate n none)
        (items'.map some ++ List.replicate n none) := by
      refine List.rel_append ?_ (List.forall₂_same.2 fun slot hslot => ?_)
      · exact List.forall₂_map_left_iff.2 (List.forall₂_map_right_iff.2 (h.imp fun _ _ => .some))
      · rw [List.eq_of_mem_replicate hslot]
        exact .none
    rw [slots?, slots?, h.length_eq]
    split
    · exact .some (hslots _)
    · exact .none

end Json.Raw

/-! ## Declarations in another order -/

namespace Schema
open Json (Raw)

variable {s t : Schema} {d d' : Document} {r r' : Raw}

namespace Document

/-- The documents declare the same, in another order. -/
structure SameEntries (d d' : Document) : Prop where
  records : d.records.Perm d'.records
  enums : d.enums.Perm d'.enums

/-- No two records have one name, and no two enumerations; a record may be named like an enumeration. -/
structure HasDistinctNames (d : Document) : Prop where
  records : (d.records.map (·.name)).Nodup
  enums : (d.enums.map (·.name)).Nodup

theorem SameEntries.symm (h : d.SameEntries d') : d'.SameEntries d := ⟨h.records.symm, h.enums.symm⟩

theorem HasDistinctNames.of_sameEntries (hn : d.HasDistinctNames) (h : d.SameEntries d') :
    d'.HasDistinctNames :=
  ⟨(h.records.map _).nodup_iff.1 hn.records, (h.enums.map _).nodup_iff.1 hn.enums⟩

theorem rel_items? {slot slot' : Option Raw} (h : Option.Rel Raw.SameItems slot slot') :
    Option.Rel List.Perm (items? slot) (items? slot') := by
  cases h with
  | none => exact .some (.refl [])
  | @some r _ h =>
    cases h with
    | refl =>
      cases r with
      | array items => exact .some (.refl items)
      | _ => exact .none
    | array h => exact .some h

/-- Documents that differ in the order of their items declare the same, or neither is well-formed. -/
theorem rel_ofRaw? (h : Raw.Reordered r r') : Option.Rel SameEntries (ofRaw? r) (ofRaw? r') := by
  refine rel_bind (h.rel_slots? ["records", "enums"]) fun slots slots' hslots => ?_
  rcases hslots with - | ⟨hrecords, - | ⟨henums, - | ⟨_, _⟩⟩⟩
  · exact .none
  · exact .none
  · refine rel_bind (rel_items? hrecords) fun items items' hitems => ?_
    refine rel_bind (rel_mapM_of_perm hitems) fun rs rs' hrs => ?_
    refine rel_bind (rel_items? henums) fun items items' hitems => ?_
    exact rel_bind (rel_mapM_of_perm hitems) fun es es' hes => .some ⟨hrs, hes⟩
  · exact .none

end Document

/-! ## Catalogs with the same answers -/

/-- Every look-up of a record type, of an enumeration or of a field has the same answer in both catalogs. -/
structure SameAnswers (s t : Schema) : Prop where
  record (name : String) : s.record name = t.record name
  enumeration (name : String) : s.enumeration name = t.enumeration name
  field (name field : String) :
    (s.record? name).bind (·.field? field) = (t.record? name).bind (·.field? field)

/-- The catalogs find the same declarations. -/
structure Agree (s t : Schema) : Prop where
  record? (name : String) : s.record? name = t.record? name
  enumeration? (name : String) : s.enumeration? name = t.enumeration? name

theorem Agree.sameAnswers (h : s.Agree t) : s.SameAnswers t where
  record name := by rw [record, record, h.record?]
  enumeration name := by rw [enumeration, enumeration, h.enumeration?]
  field name field := by rw [h.record?]

end Schema

theorem Ty.readAtom_congr {s t : Schema} (h : s.Agree t) (name : String) :
    readAtom s name = readAtom t name := by
  unfold readAtom
  rw [h.record?, h.enumeration?]

theorem Ty.readChars_congr {s t : Schema} (h : s.Agree t) (cs : List Char) :
    readChars s cs = readChars t cs := by
  fun_induction readChars s cs with
  | case1 cs _ hmark ih => rw [readChars_of_mark rfl hmark, ih]
  | case2 cs _ hmark inner hlist ih => rw [readChars_of_elementChars? rfl hmark hlist, ih]
  | case3 cs _ hmark =>
    rename_i hlist
    rw [readChars_of_neither rfl hmark hlist, readAtom_congr h]

namespace Schema
open Json (Raw)

variable {s t : Schema} {d d' : Document}

theorem record?_foldl_addRecord {rs : List RecordType} (hn : (rs.map (·.name)).Nodup) (s : Schema)
    (name : String) :
    (rs.foldl addRecord s).record? name = (rs.find? (·.name == name)).or (s.record? name) := by
  have hrecords : (rs.foldl addRecord s).records = rs.foldl (replaced RecordType.name) s.records := by
    clear hn
    induction rs generalizing s with
    | nil => rfl
    | cons r rs ih => exact ih (s.addRecord r)
  rw [record?, hrecords]
  exact find?_foldl_replaced hn s.records name

theorem enumeration?_foldl_addEnum {es : List EnumType} (hn : (es.map (·.name)).Nodup) (s : Schema)
    (name : String) :
    (es.foldl addEnum s).enumeration? name = (es.find? (·.name == name)).or (s.enumeration? name) := by
  have henums : (es.foldl addEnum s).enums = es.foldl (replaced EnumType.name) s.enums := by
    clear hn
    induction es generalizing s with
    | nil => rfl
    | cons e es ih => exact ih (s.addEnum e)
  rw [enumeration?, henums]
  exact find?_foldl_replaced hn s.enums name

/-! ## The two passes -/

theorem enums_foldl_addRecord (rs : List RecordType) (s : Schema) :
    (rs.foldl addRecord s).enums = s.enums := by
  induction rs generalizing s with
  | nil => rfl
  | cons r rs ih => rw [List.foldl_cons, ih, addRecord]

namespace Document

theorem record?_names (hn : d.HasDistinctNames) (name : String) :
    d.names.record? name = (d.records.map fun r => (⟨r.name, []⟩ : RecordType)).find? (·.name == name) := by
  have hnames : ((d.records.map fun r => (⟨r.name, []⟩ : RecordType)).map (·.name)).Nodup := by
    rw [List.map_map]
    exact hn.records
  have hfold := record?_foldl_addRecord hnames empty name
  rw [List.foldl_map] at hfold
  rw [names, Schema.record?, records_foldl_addEnum]
  exact hfold.trans Option.or_none

theorem enumeration?_names (hn : d.HasDistinctNames) (name : String) :
    d.names.enumeration? name = d.enums.find? (·.name == name) := by
  have hnone (name : String) : (d.records.foldl (fun s r => s.addRecord ⟨r.name, []⟩) empty).enumeration? name =
      none := by
    have hfold := enums_foldl_addRecord (d.records.map fun r => ⟨r.name, []⟩) empty
    rw [List.foldl_map] at hfold
    rw [enumeration?, hfold]
    rfl
  rw [names, enumeration?_foldl_addEnum hn.enums, hnone, Option.or_none]

theorem SameEntries.names (h : d.SameEntries d') (hn : d.HasDistinctNames) : d.names.Agree d'.names := by
  have hn' : d'.HasDistinctNames := hn.of_sameEntries h
  refine ⟨fun name => ?_, fun name => ?_⟩
  · rw [record?_names hn, record?_names hn']
    refine find?_eq_of_perm (h.records.map _) ?_ name
    rw [List.map_map]
    exact hn.records
  · rw [enumeration?_names hn, enumeration?_names hn']
    exact find?_eq_of_perm h.enums hn.enums name

theorem readRecord_congr (h : s.Agree t) (r : RecordDraft) : readRecord s r = readRecord t r := by
  unfold readRecord Ty.read
  simp only [Ty.readChars_congr h]

theorem name_of_readRecord {draft : RecordDraft} {r : RecordType} (h : readRecord s draft = .ok r) :
    r.name = draft.name := by
  obtain ⟨fields, -, h⟩ := bind_eq_ok.1 h
  cases h
  rfl

theorem map_name_of_readRecord {drafts : List RecordDraft} {rs : List RecordType}
    (h : drafts.mapM (readRecord s) = .ok rs) : rs.map (·.name) = drafts.map (·.name) :=
  (forall₂_map_eq_iff.1 ((mapM_eq_ok.1 h).imp fun _ _ hr => (name_of_readRecord hr).symm)).symm

end Document

theorem agree_of_ofDocument (h : d.SameEntries d') (hn : d.HasDistinctNames) (hs : ofDocument d = .ok s) :
    ∃ s', ofDocument d' = .ok s' ∧ s.Agree s' := by
  obtain ⟨rs, hrs, hs⟩ := bind_eq_ok.1 hs
  cases hs
  have hnames : d.names.Agree d'.names := h.names hn
  obtain ⟨rs', hrs', hperm⟩ := mapM_eq_ok_of_perm h.records hrs
  have hread : d'.records.mapM (Document.readRecord d'.names) = .ok rs' := by
    rw [← hrs']
    exact mapM_congr fun r _ => (Document.readRecord_congr hnames r).symm
  have hdistinct : (rs.map (·.name)).Nodup := Document.map_name_of_readRecord hrs ▸ hn.records
  have hdistinct' : (rs'.map (·.name)).Nodup := (hperm.map _).nodup_iff.1 hdistinct
  refine ⟨rs'.foldl addRecord d'.names, by rw [ofDocument, hread]; rfl, fun name => ?_, fun name => ?_⟩
  · rw [record?_foldl_addRecord hdistinct, record?_foldl_addRecord hdistinct',
      find?_eq_of_perm hperm hdistinct, hnames.record?]
  · rw [enumeration?, enumeration?, enums_foldl_addRecord, enums_foldl_addRecord]
    exact hnames.enumeration? name

/-! ## Refusals -/

theorem code_of_readAtom {name : String} {err : Error} (h : Ty.readAtom s name = .error err) :
    err.code = "Schema" := by
  unfold Ty.readAtom at h
  split at h
  case h_8 =>
    split at h
    · cases h
    split at h
    · cases h
    · cases h
      rfl
  all_goals cases h

theorem code_of_readChars {cs : List Char} {err : Error} (h : Ty.readChars s cs = .error err) :
    err.code = "Schema" := by
  fun_induction Ty.readChars s cs with
  | case1 _ _ _ ih => exact ih (map_eq_error.1 h)
  | case2 _ _ _ _ _ ih => exact ih (map_eq_error.1 h)
  | case3 => exact code_of_readAtom h

theorem code_of_readRecord {draft : RecordDraft} {err : Error}
    (h : Document.readRecord s draft = .error err) : err.code = "Schema" := by
  rcases bind_eq_error.1 h with hfields | ⟨fields, -, hok⟩
  · obtain ⟨_, f, _, _, _, hf⟩ := mapM_eq_error.1 hfields
    rcases bind_eq_error.1 hf with hty | ⟨ty, -, hok⟩
    · exact code_of_readChars hty
    · cases hok
  · cases hok

theorem code_of_ofDocument {err : Error} (h : ofDocument d = .error err) : err.code = "Schema" := by
  rcases bind_eq_error.1 h with hrs | ⟨rs, -, hok⟩
  · obtain ⟨_, draft, _, _, _, hdraft⟩ := mapM_eq_error.1 hrs
    exact code_of_readRecord hdraft
  · cases hok

/-! ## Texts -/

/-- **The order of the declarations does not matter.** Two texts of documents that differ only in the order
of their records and of their enumerations describe catalogs in which every look-up has the same answer, or
are both refused with an error of the catalog. Records have distinct names, and so have enumerations. -/
theorem read_reordered {text text' : String} {doc doc' : Raw} (hdoc : Raw.read? text = some doc)
    (hdoc' : Raw.read? text' = some doc') (h : doc.Reordered doc')
    (hn : ∀ d, Document.ofRaw? doc = some d → d.HasDistinctNames) :
    (∃ s s', read text = .ok s ∧ read text' = .ok s' ∧ s.SameAnswers s') ∨
    ∃ err err', read text = .error err ∧ read text' = .error err' ∧
      err.code = "Schema" ∧ err'.code = "Schema" := by
  have hrel : Option.Rel Document.SameEntries (Document.ofRaw? doc) (Document.ofRaw? doc') :=
    Document.rel_ofRaw? h
  rw [read, read, hdoc, hdoc', Option.bind_some, Option.bind_some]
  generalize Document.ofRaw? doc = x at hn hrel
  generalize Document.ofRaw? doc' = x' at hrel
  cases hrel with
  | none => exact .inr ⟨_, _, rfl, rfl, rfl, rfl⟩
  | @some d d' hsame =>
    have hd : d.HasDistinctNames := hn d rfl
    dsimp only
    cases hs : ofDocument d with
    | ok s =>
      obtain ⟨s', hs', hagree⟩ := agree_of_ofDocument hsame hd hs
      exact .inl ⟨s, s', rfl, hs', hagree.sameAnswers⟩
    | error err =>
      cases hs' : ofDocument d' with
      | ok s' =>
        obtain ⟨_, hok, -⟩ := agree_of_ofDocument hsame.symm (hd.of_sameEntries hsame) hs'
        cases hs.symm.trans hok
      | error err' => exact .inr ⟨err, err', rfl, rfl, code_of_ofDocument hs, code_of_ofDocument hs'⟩

/-! ## Stops and lines -/

/-- Stops and lines refer to one another, and an enumeration is named like a record. -/
def linesText : String :=
  r#"{"records":[["Stop",[["line","Line?"]]],["Line",[["end","Stop"]]]],"# ++
    r#""enums":[["Stop"],["Mood"]]}"#

/-- The same with the entries in another order. -/
def linesFirstText : String :=
  r#"{"records":[["Line",[["end","Stop"]]],["Stop",[["line","Line?"]]]],"# ++
    r#""enums":[["Mood"],["Stop"]]}"#

/-- A text as it is written, if nothing in it is escaped. -/
def word (s : String) : Raw := .string (s.toList.map .char)

def fieldOf (name field ty : String) : Raw := .array [word name, .array [.array [word field, word ty]]]

def catalogOf (records enums : List Raw) : Raw :=
  .object [("records".toList.map .char, .array records), ("enums".toList.map .char, .array enums)]

theorem read?_linesText : Raw.read? linesText = some (catalogOf
    [fieldOf "Stop" "line" "Line?", fieldOf "Line" "end" "Stop"] [.array [word "Stop"], .array [word "Mood"]]) := by
  cbv

theorem read?_linesFirstText : Raw.read? linesFirstText = some (catalogOf
    [fieldOf "Line" "end" "Stop", fieldOf "Stop" "line" "Line?"] [.array [word "Mood"], .array [word "Stop"]]) := by
  cbv

theorem hasDistinctNames_lines (d : Document) (h : Document.ofRaw? (catalogOf
    [fieldOf "Stop" "line" "Line?", fieldOf "Line" "end" "Stop"] [.array [word "Stop"], .array [word "Mood"]]) =
      some d) : d.HasDistinctNames := by
  have hdoc : d = ⟨[⟨"Stop", [("line", "Line?")]⟩, ⟨"Line", [("end", "Stop")]⟩], [⟨"Stop", []⟩, ⟨"Mood", []⟩]⟩ := by
    apply Option.some.inj
    rw [← h]
    cbv
  rw [hdoc]
  exact ⟨by decide, by decide⟩

/-- Both texts are read, and it does not matter which of stops and lines come first. -/
theorem read_reordered_lines : ∃ s s', read linesText = .ok s ∧ read linesFirstText = .ok s' ∧ s.SameAnswers s' := by
  have hsame := read_reordered read?_linesText read?_linesFirstText
    (.object (.cons ⟨rfl, .array (.swap ..)⟩ (.cons ⟨rfl, .array (.swap ..)⟩ .nil))) hasDistinctNames_lines
  rcases hsame with hread | ⟨err, _, herr, -⟩
  · exact hread
  · have hok : (read linesText).toBool = true := by decide +kernel
    rw [herr] at hok
    cases hok

end Schema

end RecordQuery
