import Mathlib.Data.List.DropRight
import RecordQuery.Proofs.Schema.Declarations

/-!
# Names of types

A text may name a type in many ways: blanks around each part do not count, and a second mark of a nullable
type changes nothing. The name that a type is written by is one of them, whatever names the catalog
declares. Records and enumerations may have names in the form of other types, or with blanks at their ends;
such names are never looked up.

* `Text.isTrimmed_trimChars` : trimmed characters have no blanks at their ends;
* `Ty.readChars_of_mark`, `Ty.readChars_of_elementChars?`, `Ty.readChars_of_neither` : the forms of a name;
* `Ty.IsAtom` : the names that are looked up in the catalog;
* `Ty.readChars_of_isAtom`, `Ty.readChars_concat_mark`, `Ty.readChars_listChars` : names as they are written;
* `Ty.Named s ty` : the types that have a name, by their form; `named_of_readChars` : types that are read;
* `Named.readChars_text` : such a type is read from the name that it is written by;
* `Ty.read_canonical` : a type that was read has one written name, which no other such type has.
-/

namespace RecordQuery

/-! ## Trimming -/

namespace Text

theorem isTrimmed_trimChars (cs : List Char) : IsTrimmed (trimChars cs) := by
  have htrim : trimChars cs = (cs.dropWhile isBlank).rdropWhile isBlank := rfl
  rw [htrim]
  constructor
  · intro c hc
    -- What is left begins like the characters after the blanks in front.
    obtain ⟨blanks, hblanks⟩ := List.rdropWhile_prefix isBlank (cs.dropWhile isBlank)
    have hhead : (cs.dropWhile isBlank).head? = some c := by
      rw [← hblanks, List.head?_append, hc, Option.some_or]
    have hnot := List.head?_dropWhile_not isBlank cs
    rw [hhead] at hnot
    exact hnot
  · intro c hc
    have hne : (cs.dropWhile isBlank).rdropWhile isBlank ≠ [] := List.ne_nil_of_mem (List.mem_of_getLast? hc)
    have hlast := List.rdropWhile_last_not isBlank (cs.dropWhile isBlank) hne
    rw [List.getLast?_eq_some_getLast hne] at hc
    cases hc
    simpa using hlast

theorem isTrimmed_concat {cs : List Char} {c : Char} (hcs : ∀ d ∈ cs.head?, isBlank d = false)
    (hc : isBlank c = false) : IsTrimmed (cs ++ [c]) := by
  refine ⟨fun d hd => ?_, fun d hd => ?_⟩
  · cases cs with
    | nil =>
      cases hd
      exact hc
    | cons _ cs => exact hcs d hd
  · rw [List.getLast?_concat] at hd
    cases hd
    exact hc

end Text

namespace Ty
variable {s : Schema} {ty : Ty} {cs : List Char} {name : String}

/-! ## The forms of a name -/

section Forms
variable {name inner : List Char} (htrim : Text.trimChars cs = name)
include htrim

theorem readChars_of_mark (hmark : name.getLast? = some '?') :
    readChars s cs = (readChars s name.dropLast).map orNull := by
  subst htrim
  rw [readChars, dif_pos hmark]

theorem readChars_of_elementChars? (hmark : name.getLast? ≠ some '?')
    (hlist : elementChars? name = some inner) : readChars s cs = (readChars s inner).map .list := by
  subst htrim
  rw [readChars, dif_neg hmark]
  split
  · rename_i h
    cases hlist.symm.trans h
    rfl
  · rename_i h
    cases hlist.symm.trans h

theorem readChars_of_neither (hmark : name.getLast? ≠ some '?') (hlist : elementChars? name = none) :
    readChars s cs = readAtom s (.ofList name) := by
  subst htrim
  rw [readChars, dif_neg hmark]
  split
  · rename_i h
    cases hlist.symm.trans h
  · rfl

end Forms

/-- The name is looked up in the catalog: it has no blanks at its ends, and is not in the form of the name of
a nullable type or of a list type. -/
structure IsAtom (cs : List Char) : Prop where
  trimmed : Text.IsTrimmed cs
  not_marked : cs.getLast? ≠ some '?'
  not_list : elementChars? cs = none

theorem readChars_of_isAtom (h : IsAtom cs) : readChars s cs = readAtom s (.ofList cs) :=
  readChars_of_neither (Text.trimChars_eq_self h.trimmed) h.not_marked h.not_list

theorem readChars_concat_mark (h : Text.IsTrimmed cs) :
    readChars s (cs ++ ['?']) = (readChars s cs).map orNull := by
  have htrimmed : Text.IsTrimmed (cs ++ ['?']) := Text.isTrimmed_concat h.1 (by decide)
  rw [readChars_of_mark (Text.trimChars_eq_self htrimmed) List.getLast?_concat, List.dropLast_concat]

def listChars (cs : List Char) : List Char := "list<".toList ++ cs ++ ['>']

theorem elementChars?_listChars (cs : List Char) : elementChars? (listChars cs) = some cs := by
  show (if (cs ++ ['>']).getLast? = some '>' then some (cs ++ ['>']).dropLast else none) = some cs
  rw [if_pos List.getLast?_concat, List.dropLast_concat]

theorem isTrimmed_listChars (cs : List Char) : Text.IsTrimmed (listChars cs) := by
  refine Text.isTrimmed_concat (fun d hd => ?_) (by decide)
  cases hd
  decide

theorem readChars_listChars (cs : List Char) : readChars s (listChars cs) = (readChars s cs).map .list := by
  have hlast : (listChars cs).getLast? = some '>' := List.getLast?_concat
  have hmark : (listChars cs).getLast? ≠ some '?' := by simp [hlast]
  exact readChars_of_elementChars? (Text.trimChars_eq_self (isTrimmed_listChars cs)) hmark
    (elementChars?_listChars cs)

theorem text_of_readAtom (h : readAtom s name = .ok ty) : ty.text = name := by
  unfold readAtom at h
  split at h
  case h_8 =>
    split at h
    · cases h
      rfl
    split at h
    · cases h
      rfl
    · cases h
  all_goals
    cases h
    rfl

/-! ## Types that have a name -/

/-- The catalog has a name for the type: one that is looked up, or one made of the names of its parts. -/
inductive Named (s : Schema) : Ty → Prop
  | atom {ty : Ty} (h : readAtom s ty.text = .ok ty) (hatom : IsAtom ty.text.toList) : Named s ty
  | list {elem : Ty} (h : Named s elem) : Named s (.list elem)
  | nullable {inner : Ty} (h : Named s inner) (hflat : inner.isNullable = false) : Named s (.nullable inner)

theorem Named.orNull (h : Named s ty) : Named s ty.orNull := by
  cases hty : ty.isNullable with
  | true =>
    cases ty with
    | nullable inner => exact h
    | _ => cases hty
  | false =>
    have horNull : ty.orNull = .nullable ty := by
      cases ty with
      | nullable inner => cases hty
      | _ => rfl
    rw [horNull]
    exact .nullable h hty

theorem named_of_readChars (h : readChars s cs = .ok ty) : Named s ty := by
  fun_induction readChars s cs generalizing ty with
  | case1 =>
    rename_i ih
    obtain ⟨inner, hinner, rfl⟩ := map_eq_ok.1 h
    exact (ih hinner).orNull
  | case2 =>
    rename_i ih
    obtain ⟨elem, helem, rfl⟩ := map_eq_ok.1 h
    exact .list (ih helem)
  | case3 cs _ hmark =>
    rename_i hlist
    have hchars : ty.text.toList = Text.trimChars cs := by rw [text_of_readAtom h, String.toList_ofList]
    refine .atom (text_of_readAtom h ▸ h) ?_
    rw [hchars]
    exact ⟨Text.isTrimmed_trimChars cs, hmark, hlist⟩

theorem toList_text_list (elem : Ty) : (text (.list elem)).toList = listChars elem.text.toList := by
  rw [text, String.toList_append, String.toList_append]
  rfl

theorem toList_text_nullable (inner : Ty) : (text (.nullable inner)).toList = inner.text.toList ++ ['?'] := by
  rw [text, String.toList_append]
  rfl

namespace Named

theorem isTrimmed_text (h : Named s ty) : Text.IsTrimmed ty.text.toList := by
  induction h with
  | atom _ hatom => exact hatom.trimmed
  | @list elem h ih =>
    rw [toList_text_list]
    exact isTrimmed_listChars elem.text.toList
  | nullable h hflat ih =>
    rw [toList_text_nullable]
    exact Text.isTrimmed_concat ih.1 (by decide)

theorem readChars_text (h : Named s ty) : readChars s ty.text.toList = .ok ty := by
  induction h with
  | atom h hatom => rw [readChars_of_isAtom hatom, String.ofList_toList, h]
  | @list elem h ih =>
    rw [toList_text_list, readChars_listChars, ih]
    rfl
  | @nullable inner h hflat ih =>
    rw [toList_text_nullable, readChars_concat_mark h.isTrimmed_text, ih]
    cases inner with
    | nullable inner => cases hflat
    | _ => rfl

end Named

/-- **Names of types are canonical.** A type that was read has no nullable type directly inside another, is
read again from the name that it is written by, and no other type that can be read is written by it. -/
theorem read_canonical {raw : String} (h : read s raw = .ok ty) :
    ty.Flat ∧ read s ty.text = .ok ty ∧
    ∀ raw' ty', read s raw' = .ok ty' → (ty = ty' ↔ ty.text = ty'.text) := by
  have hread {raw : String} {ty : Ty} (h : read s raw = .ok ty) : read s ty.text = .ok ty :=
    (named_of_readChars h).readChars_text
  refine ⟨(isDeclared_of_readChars h).flat, hread h, fun raw' ty' h' => ⟨congrArg text, fun heq => ?_⟩⟩
  have hty : read s ty'.text = .ok ty := heq ▸ hread h
  exact Except.ok.inj (hty.symm.trans (hread h'))

/-- A catalog with names in the form of other types, with a blank at the end, and without a character. -/
def oddNames : Schema :=
  ⟨[⟨"A", []⟩, ⟨"A?", []⟩, ⟨"list<A?>", []⟩, ⟨"A ", []⟩], [⟨"", []⟩, ⟨"list<", []⟩]⟩

theorem read_oddNames :
    read oddNames " list< A ?? > ?" = .ok (.nullable (.list (.nullable (.record "A")))) := by
  decide +kernel

/-- The records that are named like the type and like its element are not the types that are read. -/
theorem read_canonical_oddNames :
    read oddNames " list< A ?? > ?" = .ok (.nullable (.list (.nullable (.record "A")))) ∧
    Flat (.nullable (.list (.nullable (.record "A")))) ∧
    read oddNames "list<A?>?" = .ok (.nullable (.list (.nullable (.record "A")))) :=
  have h := read_canonical read_oddNames
  ⟨read_oddNames, h.1, h.2.1⟩

end Ty

end RecordQuery
