import RecordQuery.Filter.Descriptor
import RecordQuery.Proofs.Json.Writing
import RecordQuery.Proofs.Optional
import RecordQuery.Proofs.Outcome

/-!
# Lists of filters as documents

A list of filters has two readers. Both take an operator that is left out for none; only the lenient one
takes null for none, and only it tells why it refuses a list.

* `HasNullOperator` : the elements that only one of the readers takes;
* `Draft.ofRaw?_eq_some_iff`, `Descriptor.ofRaw?_eq_some_iff` : the parts of an element;
* `ofRaw?_iff_draft` : both readers on one element;
* `readStrict?_iff_readList` : both readers on a text;
* `Descriptor.raw`, `Descriptor.reads_chars`, `Descriptor.ofRaw?_raw` : what a filter is written as;
* `readers_agree` : both readers give back what was written.
-/

namespace RecordQuery.Filter
open Json (Raw)

/-! ## Elements -/

def HasNullOperator (r : Raw) : Prop :=
  ∃ property value, r.slots? ["property", "operator", "value"] = some [property, some .null, value]

variable {r : Raw} {d : Descriptor} {draft : Draft}

/-- Both readers look at three slots, of which the first must be filled. -/
theorem bind_slots_eq_some_iff {α : Type} {slots : Option (List (Option Raw))}
    {f : Raw → Option Raw → Option Raw → Option α} {a : α} :
    (do let [some property, operator, value] ← slots | none
        f property operator value) = some a ↔
      ∃ property operator value, slots = some [some property, operator, value] ∧
        f property operator value = some a := by
  rw [Option.bind_eq_bind, Option.bind_eq_some_iff]
  constructor
  · rintro ⟨slots, rfl, h⟩
    split at h
    · exact ⟨_, _, _, rfl, h⟩
    · cases h
  · rintro ⟨property, operator, value, rfl, h⟩
    exact ⟨_, rfl, h⟩

theorem Draft.ofRaw?_eq_some_iff : Draft.ofRaw? r = some draft ↔ ∃ property operator value,
    r.slots? ["property", "operator", "value"] = some [some property, operator, value] ∧
    property.string? = some draft.property ∧ optionalText? operator = some draft.operator ∧
    optionalText? value = some draft.value := by
  refine bind_slots_eq_some_iff.trans (exists₃_congr fun property operator value => ?_)
  cases draft
  simp [Option.bind_eq_some_iff]

theorem Descriptor.ofRaw?_eq_some_iff : Descriptor.ofRaw? r = some d ↔ ∃ property operator value,
    r.slots? ["property", "operator", "value"] = some [some property, operator, value] ∧
    property.string? = some d.property ∧ strictOperator? operator = some d.operator ∧
    optionalText? value = some d.value := by
  refine bind_slots_eq_some_iff.trans (exists₃_congr fun property operator value => ?_)
  cases d
  simp [Option.bind_eq_some_iff]

theorem Operator.read_eq_ok_iff {name : String} {op : Operator} :
    Operator.read name = .ok op ↔ Operator.read? name = some op := by
  rw [Operator.read]
  cases Operator.read? name <;> simp

def Operator.ofName? (name : Option String) : Option Operator :=
  name.elim (some .none) Operator.read?

theorem Draft.descriptor_eq_ok_iff : draft.descriptor = .ok d ↔
    draft.property = d.property ∧ Operator.ofName? draft.operator = some d.operator ∧
    draft.value = d.value := by
  have hdescriptor : draft.descriptor = .ok d ↔ ∃ op, Operator.ofName? draft.operator = some op ∧
      (⟨draft.property, op, draft.value⟩ : Descriptor) = d := by
    unfold Draft.descriptor
    cases draft.operator with
    | none => simp [Operator.ofName?]
    | some name => simp [Operator.ofName?, bind_eq_ok, Operator.read_eq_ok_iff]
  rw [hdescriptor]
  constructor
  · rintro ⟨op, hop, rfl⟩
    exact ⟨rfl, hop, rfl⟩
  · rintro ⟨hproperty, hop, hvalue⟩
    exact ⟨d.operator, hop, by rw [hproperty, hvalue]⟩

/-- The strict reader takes the operators that the lenient one takes, but for null. -/
theorem strictOperator?_eq_some_iff {slot : Option Raw} {op : Operator} :
    strictOperator? slot = some op ↔
      slot ≠ some .null ∧ ∃ name, optionalText? slot = some name ∧ Operator.ofName? name = some op := by
  rcases slot with - | (- | - | - | - | - | -) <;>
    simp [strictOperator?, optionalText?, Operator.ofName?, Raw.string?, Option.bind_eq_some_iff]

theorem ofRaw?_iff_draft : Descriptor.ofRaw? r = some d ↔
    ¬ HasNullOperator r ∧ ∃ draft, Draft.ofRaw? r = some draft ∧ draft.descriptor = .ok d := by
  simp only [Descriptor.ofRaw?_eq_some_iff, Draft.ofRaw?_eq_some_iff, Draft.descriptor_eq_ok_iff,
    strictOperator?_eq_some_iff]
  constructor
  · rintro ⟨property, operator, value, hslots, hproperty, ⟨hnull, name, hname, hop⟩, hvalue⟩
    refine ⟨?_, ⟨d.property, name, d.value⟩, ⟨property, operator, value, hslots, hproperty, hname, hvalue⟩,
      rfl, hop, rfl⟩
    -- There is one slot for the operator, so a null in it is the one that the strict reader refuses.
    rintro ⟨property', value', hslots'⟩
    rw [hslots] at hslots'
    cases hslots'
    exact hnull rfl
  · rintro ⟨hnull, draft, ⟨property, operator, value, hslots, hproperty, hname, hvalue⟩, hp, hop, hv⟩
    rw [hp] at hproperty
    rw [hv] at hvalue
    refine ⟨property, operator, value, hslots, hproperty, ⟨?_, draft.operator, hname, hop⟩, hvalue⟩
    rintro rfl
    exact hnull ⟨some property, value, hslots⟩

/-! ## Texts -/

variable {text : String} {ds : List Descriptor}

theorem readStrict?_eq_some_iff : readStrict? text = some ds ↔ ∃ items, items? text = some items ∧
    List.Forall₂ (Descriptor.ofRaw? · = some ·) items ds := by
  rw [readStrict?, Option.bind_eq_some_iff]
  simp only [mapM_eq_some]

theorem readList_eq_ok_iff : readList text = .ok ds ↔ ∃ items, items? text = some items ∧
    List.Forall₂ (fun r d => ∃ draft, Draft.ofRaw? r = some draft ∧ draft.descriptor = .ok d) items ds := by
  simp only [forall₂_exists_iff, ← mapM_eq_some, ← mapM_eq_ok]
  rw [readList]
  cases items? text with
  | none => simp
  | some items => cases hdrafts : items.mapM Draft.ofRaw? <;> simp [hdrafts]

theorem readStrict?_iff_readList : readStrict? text = some ds ↔ readList text = .ok ds ∧
    ∀ items, items? text = some items → ∀ r ∈ items, ¬ HasNullOperator r := by
  rw [readStrict?_eq_some_iff, readList_eq_ok_iff]
  simp only [ofRaw?_iff_draft, List.forall₂_and_left]
  constructor
  · rintro ⟨items, hitems, hoperators, hdrafts⟩
    refine ⟨⟨items, hitems, hdrafts⟩, fun items' hitems' => ?_⟩
    rw [hitems] at hitems'
    cases hitems'
    exact hoperators
  · rintro ⟨⟨items, hitems, hdrafts⟩, hoperators⟩
    exact ⟨items, hitems, hoperators items hitems, hdrafts⟩

/-! ## Writing -/

theorem Operator.read?_name (op : Operator) : Operator.read? op.name = some op := by
  cases op <;> decide +kernel

namespace Descriptor

/-- The value of a filter as it is written, and as it is read. -/
def valueChars (d : Descriptor) : List Char := d.value.elim Json.null.chars Json.quotedChars

def rawValue (d : Descriptor) : Raw := d.value.elim .null .quoted

/-- The members of a filter as they are written, and as they are read. -/
def memberChars (d : Descriptor) : List (String × List Char) :=
  [("property", Json.quotedChars d.property), ("operator", Json.quotedChars d.operator.name),
    ("value", d.valueChars)]

def rawMembers (d : Descriptor) : List (List Raw.Piece × Raw) :=
  [("property".toList.map Raw.pieceOf, .quoted d.property),
    ("operator".toList.map Raw.pieceOf, .quoted d.operator.name), ("value".toList.map Raw.pieceOf, d.rawValue)]

/-- The document that a filter is written as. -/
def raw (d : Descriptor) : Raw := .object d.rawMembers

theorem chars_eq (d : Descriptor) :
    d.chars = '\x7b' :: (Json.commaSeparated (d.memberChars.map Raw.memberChars) ++ ['\x7d']) := by
  unfold chars memberChars valueChars
  cases d.value <;> simp [Raw.memberChars, Json.commaSeparated, Json.quotedChars, Json.escape]

theorem reads_valueChars (d : Descriptor) : Raw.Reads d.valueChars d.rawValue := by
  unfold valueChars rawValue
  cases d.value with
  | none => exact .null
  | some text => exact .quoted text

theorem reads_chars (d : Descriptor) : Raw.Reads d.chars d.raw := by
  have hmembers : List.Forall₂ Raw.Reads.Member d.memberChars d.rawMembers :=
    .cons ⟨rfl, .quoted _⟩ (.cons ⟨rfl, .quoted _⟩ (.cons ⟨rfl, d.reads_valueChars⟩ .nil))
  rw [chars_eq]
  exact .object hmembers (List.cons_ne_nil _ _)

theorem slots?_raw (d : Descriptor) : d.raw.slots? ["property", "operator", "value"] =
    some [some (.quoted d.property), some (.quoted d.operator.name), some d.rawValue] := by
  simp only [raw, rawMembers, Raw.slots?, Raw.keyed?, List.mapM_cons, Raw.decode?_map_pieceOf, List.mapM_nil]
  rfl

theorem optionalText?_rawValue (d : Descriptor) : optionalText? (some d.rawValue) = some d.value := by
  cases h : d.value with
  | none => rw [rawValue, h]; rfl
  | some value =>
    rw [rawValue, h]
    exact congrArg (Option.map some) (Raw.string?_quoted value)

theorem ofRaw?_raw (d : Descriptor) : ofRaw? d.raw = some d := by
  rw [ofRaw?_eq_some_iff]
  refine ⟨_, _, _, d.slots?_raw, Raw.string?_quoted _, ?_, d.optionalText?_rawValue⟩
  rw [strictOperator?, Raw.string?_quoted, Option.bind_some, Operator.read?_name]

end Descriptor

theorem items?_writeList (ds : List Descriptor) : items? (writeList ds) = some (ds.map Descriptor.raw) := by
  have hparts : List.Forall₂ Raw.Reads (ds.map Descriptor.chars) (ds.map Descriptor.raw) := by
    rw [List.forall₂_map_left_iff, List.forall₂_map_right_iff, List.forall₂_same]
    exact fun d _ => d.reads_chars
  rw [items?, writeList, Raw.read?, String.toList_ofList, (Raw.Reads.array hparts).readChars?]

theorem readStrict?_writeList (ds : List Descriptor) : readStrict? (writeList ds) = some ds := by
  rw [readStrict?, items?_writeList, Option.bind_some, mapM_eq_some, List.forall₂_map_left_iff,
    List.forall₂_same]
  exact fun d _ => d.ofRaw?_raw

/-- A text that the strict reader takes is a text that the lenient one takes, in which no operator is null;
both read it as the same filters. Both read what was written as it was. -/
theorem readers_agree :
    (∀ text ds, readStrict? text = some ds → readList text = .ok ds) ∧
    (∀ text items ds, items? text = some items → (∀ r ∈ items, ¬ HasNullOperator r) →
      readList text = .ok ds → readStrict? text = some ds) ∧
    ∀ ds, readList (writeList ds) = .ok ds ∧ readStrict? (writeList ds) = some ds := by
  refine ⟨fun text ds h => (readStrict?_iff_readList.1 h).1, fun text items ds hitems hoperators h => ?_,
    fun ds => ?_⟩
  · refine readStrict?_iff_readList.2 ⟨h, fun items' hitems' => ?_⟩
    rw [hitems] at hitems'
    cases hitems'
    exact hoperators
  · have hstrict := readStrict?_writeList ds
    exact ⟨(readStrict?_iff_readList.1 hstrict).1, hstrict⟩

/-- A list in which the operator is left out once and is written oddly once. -/
def oddText : String := r#"[["Name"],["Age"," lessthan ","30"]]"#

theorem readers_agree_oddText :
    readStrict? oddText = some [⟨"Name", .none, none⟩, ⟨"Age", .less, "30"⟩] ∧
    readList oddText = .ok [⟨"Name", .none, none⟩, ⟨"Age", .less, "30"⟩] := by
  have hstrict : readStrict? oddText = some [⟨"Name", .none, none⟩, ⟨"Age", .less, "30"⟩] := by
    decide +kernel
  exact ⟨hstrict, readers_agree.1 _ _ hstrict⟩

end RecordQuery.Filter
