import Mathlib.Data.List.Nodup
import RecordQuery.Proofs.Calendar.Reading
import RecordQuery.Proofs.Value.Loading

/-!
# Scalars that are written and read

The texts of scalars denote them again: blanks at the ends do not count, so no text may have any there
that are meant, and the name of a constant may not be taken for an ordinal.

* `Text.trimChars_eq_self` : a text without blanks at its ends is not trimmed;
* `Integer.read?_text` : the digits of an integer;
* `Uuid.read_chars` : the hyphenated form of an identifier;
* `EnumType.Has` : the constants of an enumeration, which `Constant.has_of_read` says are the ones read;
* `EnumType.IsLegible`, `Constant.read_text` : names that are read as the constants that they name;
* `Value.read_uuid`, `Value.read_date`, `Value.read_dateTime`, `Value.read_enum` : the texts of values.
-/

namespace RecordQuery

/-! ## Blanks at the ends -/

namespace Text

/-- The text does not begin or end with a blank. -/
def IsTrimmed (cs : List Char) : Prop :=
  (∀ c ∈ cs.head?, isBlank c = false) ∧ ∀ c ∈ cs.getLast?, isBlank c = false

variable {cs ds : List Char}

theorem IsTrimmed.of_forall (h : ∀ c ∈ cs, isBlank c = false) : IsTrimmed cs :=
  ⟨fun c hc => h c (List.mem_of_mem_head? hc), fun c hc => h c (List.mem_of_mem_getLast? hc)⟩

theorem dropWhile_isBlank_eq_self (h : ∀ c ∈ cs.head?, isBlank c = false) :
    cs.dropWhile isBlank = cs := by
  cases cs with
  | nil => rfl
  | cons c cs => rw [List.dropWhile_cons_of_neg (by simp [h c rfl])]

theorem trimChars_eq_self (h : IsTrimmed cs) : trimChars cs = cs := by
  have hlast : ∀ c ∈ cs.reverse.head?, isBlank c = false := by
    rw [List.head?_reverse]
    exact h.2
  rw [trimChars, dropWhile_isBlank_eq_self h.1, dropWhile_isBlank_eq_self hlast, List.reverse_reverse]

theorem IsTrimmed.append_cons (hcs : ∀ c ∈ cs, isBlank c = false) (hds : ∀ d ∈ ds, isBlank d = false)
    (hcs' : cs ≠ []) (hds' : ds ≠ []) (m : Char) : IsTrimmed (cs ++ m :: ds) := by
  refine ⟨fun c hc => hcs c ?_, fun d hd => hds d ?_⟩
  · rw [List.head?_append_of_ne_nil _ hcs'] at hc
    exact List.mem_of_mem_head? hc
  · rw [List.getLast?_append_of_ne_nil _ (List.cons_ne_nil m ds),
      List.getLast?_cons_of_ne_nil hds'] at hd
    exact List.mem_of_mem_getLast? hd

theorem isBlank_of_ascii {c : Char} (hlow : 32 < c.toNat) (hhigh : c.toNat < 127) :
    isBlank c = false := by
  unfold isBlank
  simp
  omega

theorem isBlank_of_isDigit {c : Char} (h : c.isDigit) : isBlank c = false := by
  obtain ⟨hlow, hhigh⟩ := Char.isDigit_iff_toNat.1 h
  have hzero : '0'.toNat = 48 := rfl
  have hnine : '9'.toNat = 57 := rfl
  exact isBlank_of_ascii (by omega) (by omega)

end Text

theorem Text.trim_ofList {cs : List Char} (h : Text.IsTrimmed cs) :
    Text.trim (.ofList cs) = .ofList cs := by
  rw [Text.trim, String.toList_ofList, Text.trimChars_eq_self h]

/-! ## Integers -/

namespace Integer

theorem isTrimmed_chars (n : Int) : Text.IsTrimmed (chars n) := by
  refine .of_forall fun c hc => ?_
  cases n with
  | ofNat n => exact Text.isBlank_of_isDigit (isDigit_of_mem_toDigits hc)
  | negSucc n =>
    rcases List.mem_cons.1 hc with rfl | hc
    · decide
    · exact Text.isBlank_of_isDigit (isDigit_of_mem_toDigits hc)

theorem isBlank_of_mem_padded {w n : Nat} {c : Char} (h : c ∈ padded w n) : Text.isBlank c = false :=
  Text.isBlank_of_isDigit (isDigit_of_mem_padded h)

theorem trim_text (n : Int64) : Text.trim (text n) = text n :=
  Text.trim_ofList (isTrimmed_chars n.toInt)

theorem read?_text (n : Int64) : read? (text n).toList = some n := by
  rw [text, String.toList_ofList, read?, read_chars]
  rfl

end Integer

/-! ## Identifiers -/

namespace Uuid

theorem hexDigit?_hexChar (d : Fin 16) : Text.hexDigit? (hexChar d) = some d := by
  revert d
  decide

theorem utf8Size_hexChar (d : Fin 16) : (hexChar d).utf8Size = 1 := by
  revert d
  decide

theorem isBlank_hexChar (d : Fin 16) : Text.isBlank (hexChar d) = false := by
  revert d
  decide

theorem ofHex?_map_hexChar (u : Uuid) : ofHex? (u.digits.map hexChar) = some u := by
  have hread : (u.digits.map hexChar).mapM Text.hexDigit? = some u.digits := by
    induction u.digits with
    | nil => rfl
    | cons d ds ih => simp [hexDigit?_hexChar, ih]
  rw [ofHex?, hread, Option.bind_some, dif_pos u.length_eq]

/-- Groups of 8, 4, 4, 4 and 12 digits with hyphens between them are read without the hyphens. -/
theorem ofHyphenated?_groups {a b c d e : List Char} (ha : a.length = 8) (hb : b.length = 4)
    (hc : c.length = 4) (hd : d.length = 4) :
    ofHyphenated? (a ++ '-' :: b ++ '-' :: c ++ '-' :: d ++ '-' :: e) =
      ofHex? (a ++ b ++ c ++ d ++ e) := by
  unfold ofHyphenated?
  simp [List.getElem?_append, List.drop_append, List.drop_eq_nil_of_le, ha, hb, hc, hd]

theorem mem_chars {u : Uuid} {c : Char} (h : c ∈ u.chars) : c = '-' ∨ ∃ d, c = hexChar d := by
  have hdigit (h : c ∈ u.digits.map hexChar) : c = '-' ∨ ∃ d, c = hexChar d := by
    obtain ⟨d, -, rfl⟩ := List.mem_map.1 h
    exact .inr ⟨d, rfl⟩
  unfold chars at h
  simp only [List.mem_append, List.mem_cons] at h
  rcases h with (((h | h | h) | h | h) | h | h) | h | h
  · exact hdigit (List.mem_of_mem_take h)
  · exact .inl h
  · exact hdigit (List.mem_of_mem_drop (List.mem_of_mem_take h))
  · exact .inl h
  · exact hdigit (List.mem_of_mem_drop (List.mem_of_mem_take h))
  · exact .inl h
  · exact hdigit (List.mem_of_mem_drop (List.mem_of_mem_take h))
  · exact .inl h
  · exact hdigit (List.mem_of_mem_drop h)

theorem byteLength_eq_length {cs : List Char} (h : ∀ c ∈ cs, c.utf8Size = 1) :
    byteLength cs = cs.length := by
  induction cs with
  | nil => rfl
  | cons c cs ih =>
    obtain ⟨hc, hcs⟩ := List.forall_mem_cons.1 h
    have hrest : byteLength cs = cs.length := ih hcs
    rw [List.length_cons, ← hrest, Nat.add_comm, ← hc]
    rfl

theorem byteLength_chars (u : Uuid) : byteLength u.chars = 36 := by
  have hascii : ∀ c ∈ u.chars, c.utf8Size = 1 := by
    intro c hc
    rcases mem_chars hc with rfl | ⟨d, rfl⟩
    · rfl
    · exact utf8Size_hexChar d
  rw [byteLength_eq_length hascii]
  simp [chars, u.length_eq]

/-- **The hyphenated form of an identifier is read as the identifier.** -/
theorem read_chars (u : Uuid) : read u.chars = .ok u := by
  let cs := u.digits.map hexChar
  have hlen : cs.length = 32 := by rw [List.length_map, u.length_eq]
  have h12 : cs.take 12 = cs.take 8 ++ (cs.drop 8).take 4 := List.take_add (i := 8) (j := 4)
  have h16 : cs.take 16 = cs.take 12 ++ (cs.drop 12).take 4 := List.take_add (i := 12) (j := 4)
  have h20 : cs.take 20 = cs.take 16 ++ (cs.drop 16).take 4 := List.take_add (i := 16) (j := 4)
  have hread : ofHyphenated? u.chars = some u := by
    show ofHyphenated? (cs.take 8 ++ '-' :: (cs.drop 8).take 4 ++ '-' :: (cs.drop 12).take 4 ++
      '-' :: (cs.drop 16).take 4 ++ '-' :: cs.drop 20) = some u
    rw [ofHyphenated?_groups (by simp [hlen]) (by simp [hlen]) (by simp [hlen]) (by simp [hlen]),
      ← h12, ← h16, ← h20, List.take_append_drop, ofHex?_map_hexChar]
  rw [read, hyphenatedPart?, byteLength_chars]
  simp [hread]

end Uuid

/-! ## Constants of enumerations -/

/-- A constant of the enumeration: a declared one, or a bare ordinal that no constant has. -/
inductive EnumType.Has (e : EnumType) : Constant → Prop
  | declared {name : String} {ordinal : Int64} (h : (name, ordinal) ∈ e.constants) :
      e.Has ⟨ordinal, some name⟩
  | bare {ordinal : Int64} (h : e.nameOf? ordinal = none) : e.Has ⟨ordinal, none⟩

/-- The names of the constants differ, and none is written with blanks at its ends or as an integer. -/
structure EnumType.IsLegible (e : EnumType) : Prop where
  nodup : (e.constants.map Prod.fst).Nodup
  trimmed : ∀ c ∈ e.constants, Text.trim c.1 = c.1
  notInteger : ∀ c ∈ e.constants, Integer.read? c.1.toList = none

theorem EnumType.IsLegible.ordinalOf?_eq_some {e : EnumType} (h : e.IsLegible) {name : String}
    {ordinal : Int64} (hmem : (name, ordinal) ∈ e.constants) : e.ordinalOf? name = some ordinal := by
  unfold ordinalOf?
  cases hfind : e.constants.find? (·.1 == name) with
  | none =>
    have hne := List.find?_eq_none.1 hfind _ hmem
    simp at hne
  | some x =>
    have hname : x.1 = name := by simpa using List.find?_some hfind
    have hx : x = (name, ordinal) :=
      List.inj_on_of_nodup_map h.nodup (List.mem_of_find?_eq_some hfind) hmem hname
    rw [hx]
    rfl

theorem Schema.enumeration_eq_ok {s : Schema} {name : String} {e : EnumType} :
    s.enumeration name = .ok e ↔ s.enumeration? name = some e := by
  unfold enumeration
  cases s.enumeration? name <;> simp

namespace Constant

variable {s : Schema} {name : String} {e : EnumType} {c : Constant}

theorem has_of_read {raw : String} (h : read s name raw = .ok c) :
    ∃ e, s.enumeration? name = some e ∧ e.Has c := by
  obtain ⟨e, he, h⟩ := bind_eq_ok.1 h
  refine ⟨e, Schema.enumeration_eq_ok.1 he, ?_⟩
  dsimp only at h
  split at h
  · rename_i ordinal _
    cases h
    cases hname : e.nameOf? ordinal with
    | none => exact .bare hname
    | some found =>
      obtain ⟨x, hx, rfl⟩ := Option.map_eq_some_iff.1 hname
      have hordinal : x.2 = ordinal := by simpa using List.find?_some hx
      exact .declared (hordinal ▸ List.mem_of_find?_eq_some hx)
  · split at h
    · rename_i ordinal hordinal
      cases h
      obtain ⟨x, hx, rfl⟩ := Option.map_eq_some_iff.1 hordinal
      have hname : x.1 = Text.trim raw := by simpa using List.find?_some hx
      exact .declared (hname ▸ List.mem_of_find?_eq_some hx)
    · cases h

theorem read_of_ordinal {ordinal : Int64} (raw : String) (he : s.enumeration? name = some e)
    (h : Integer.read? (Text.trim raw).toList = some ordinal) :
    read s name raw = .ok ⟨ordinal, e.nameOf? ordinal⟩ := by
  unfold read
  rw [Schema.enumeration_eq_ok.2 he, ok_bind]
  dsimp only
  rw [h]
  rfl

theorem read_of_name {ordinal : Int64} (raw : String) (he : s.enumeration? name = some e)
    (h : Integer.read? (Text.trim raw).toList = none)
    (hordinal : e.ordinalOf? (Text.trim raw) = some ordinal) :
    read s name raw = .ok ⟨ordinal, some (Text.trim raw)⟩ := by
  unfold read
  rw [Schema.enumeration_eq_ok.2 he, ok_bind]
  dsimp only
  rw [h]
  dsimp only
  rw [hordinal]
  rfl

/-- **The text of a constant is read as the constant.** -/
theorem read_text (he : s.enumeration? name = some e) (hlegible : e.IsLegible) (hc : e.Has c) :
    read s name c.text = .ok c := by
  cases hc with
  | @declared constant ordinal h =>
    have htrim : Text.trim constant = constant := hlegible.trimmed (constant, ordinal) h
    have hinteger : Integer.read? constant.toList = none := hlegible.notInteger (constant, ordinal) h
    have hread := read_of_name constant he (htrim.symm ▸ hinteger)
      (htrim.symm ▸ hlegible.ordinalOf?_eq_some h)
    rwa [htrim] at hread
  | @bare ordinal h =>
    have htrim : Text.trim (Integer.text ordinal) = Integer.text ordinal := Integer.trim_text ordinal
    have hinteger : Integer.read? (Integer.text ordinal).toList = some ordinal :=
      Integer.read?_text ordinal
    have hread := read_of_ordinal (Integer.text ordinal) he (htrim.symm ▸ hinteger)
    rwa [h] at hread

end Constant

/-! ## Dates and moments -/

theorem Date.isBlank_of_mem_chars {d : Date} {c : Char} (h : c ∈ d.chars) : Text.isBlank c = false := by
  have hhyphen : Text.isBlank '-' = false := by decide
  unfold chars at h
  simp only [List.mem_append, List.mem_cons] at h
  rcases h with ((h | h) | rfl | h) | rfl | h
  · split at h
    · rw [List.mem_singleton.1 h]
      exact hhyphen
    · cases h
  · exact Integer.isBlank_of_mem_padded h
  · exact hhyphen
  · exact Integer.isBlank_of_mem_padded h
  · exact hhyphen
  · exact Integer.isBlank_of_mem_padded h

theorem TimeOfDay.isBlank_of_mem_chars {t : TimeOfDay} {c : Char} (h : c ∈ t.chars) :
    Text.isBlank c = false := by
  have hcolon : Text.isBlank ':' = false := by decide
  unfold chars at h
  simp only [List.mem_append, List.mem_cons] at h
  rcases h with (h | rfl | h) | rfl | h
  · exact Integer.isBlank_of_mem_padded h
  · exact hcolon
  · exact Integer.isBlank_of_mem_padded h
  · exact hcolon
  · exact Integer.isBlank_of_mem_padded h

theorem DateTime.isTrimmed_chars (t : DateTime) : Text.IsTrimmed t.chars :=
  .append_cons (fun _ => Date.isBlank_of_mem_chars) (fun _ => TimeOfDay.isBlank_of_mem_chars)
    (by simp [Date.chars]) (by simp [TimeOfDay.chars]) ' '

/-! ## Texts of scalars -/

namespace Value
variable {s : Schema}

theorem read_uuid (u : Uuid) : read s (text (.uuid u)) .uuid = .ok (.uuid u) := by
  have htrim : Text.IsTrimmed u.chars := by
    refine .of_forall fun c hc => ?_
    rcases Uuid.mem_chars hc with rfl | ⟨d, rfl⟩
    · decide
    · exact Uuid.isBlank_hexChar d
  rw [read, text, String.toList_ofList, Text.trimChars_eq_self htrim, Uuid.read_chars]

theorem read_date (d : Date) : read s (text (.date d)) .date = .ok (.date d) := by
  have htrim : Text.IsTrimmed d.chars := .of_forall fun _ => Date.isBlank_of_mem_chars
  rw [read, text, String.toList_ofList, Text.trimChars_eq_self htrim, Date.read?_chars]

theorem read_dateTime {t : DateTime} (h : t.time.nanosecond = 0) :
    read s (text (.dateTime t)) .dateTime = .ok (.dateTime t) := by
  rw [read, text, String.toList_ofList, Text.trimChars_eq_self t.isTrimmed_chars, DateTime.read_chars h]

theorem read_enum {name : String} {e : EnumType} {c : Constant} (he : s.enumeration? name = some e)
    (hlegible : e.IsLegible) (hc : e.Has c) : read s (text (.enum c)) (.enum name) = .ok (.enum c) := by
  rw [read, text, Constant.read_text he hlegible hc]
  rfl

end Value

end RecordQuery
