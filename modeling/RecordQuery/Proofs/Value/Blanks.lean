import Mathlib.Data.List.TakeWhile
import RecordQuery.Proofs.Filter.TextMatch

/-!
# Blanks around a text

Where a type is not text, the blanks around a text that is read do not count, but they count for being
empty: a blank text is not null.

* `Text.trimChars_append` : added blanks are taken off again;
* `Ty.core` : the type inside all nullable wrappers;
* `Value.code_read_of_trimChars` : what is read depends on the trimmed text;
* `Value.read_of_ne_empty`, `Value.read_empty` : null is what the empty text alone means;
* `Value.read_surrounded` : when a text with blanks around it means what it means without them.
-/

namespace RecordQuery

namespace Text
variable {before cs after : List Char}

theorem trimChars_append (hbefore : ∀ c ∈ before, isBlank c = true)
    (hafter : ∀ c ∈ after, isBlank c = true) : trimChars (before ++ cs ++ after) = trimChars cs := by
  unfold trimChars
  rw [List.append_assoc, List.dropWhile_append_of_pos hbefore, List.dropWhile_append]
  split
  · -- All the characters are blank.
    rename_i h
    rw [List.isEmpty_iff.1 h, List.dropWhile_eq_nil_iff.2 hafter]
  · rw [List.reverse_append, List.dropWhile_append_of_pos]
    intro c hc
    exact hafter c (List.mem_reverse.1 hc)

end Text

/-- The type without its nullable wrappers. -/
def Ty.core : Ty → Ty
  | .nullable inner => inner.core
  | ty => ty

theorem Ty.not_isNullable_core (ty : Ty) : ty.core.isNullable = false := by
  induction ty with
  | nullable inner ih => exact ih
  | _ => rfl

theorem Ty.isText_eq_false {ty : Ty} (h : ty.core ≠ .string) : ty.isText = false := by
  refine Bool.eq_false_iff.2 fun htext => h ?_
  unfold isText at htext
  cases ty with
  | nullable inner =>
    have hinner : inner = .string := eq_of_beq htext
    rw [hinner]
    rfl
  | _ => exact eq_of_beq htext

theorem Ty.core_of_not_isNullable {ty : Ty} (h : ty.isNullable = false) : ty.core = ty := by
  cases ty with
  | nullable inner => cases h
  | _ => rfl

theorem toOption_mapError {ε ε' α : Type} (f : ε → ε') (x : Except ε α) :
    (x.mapError f).toOption = x.toOption := by
  cases x <;> rfl

namespace Value
variable {s : Schema} {raw raw' : String} {ty : Ty}

/-- Where a type is neither nullable nor text, a text is read for what it is without the blanks. -/
theorem code_read_of_trimChars (hnull : ty.isNullable = false) (hty : ty ≠ .string)
    (htrim : Text.trimChars raw.toList = Text.trimChars raw'.toList) :
    (read s raw ty).mapError Error.code = (read s raw' ty).mapError Error.code := by
  have htrim' : Text.trim raw = Text.trim raw' := congrArg String.ofList htrim
  cases ty with
  | nullable inner => cases hnull
  | string => contradiction
  | bool =>
    rw [read, read, htrim']
    split
    · rfl
    · split <;> rfl
  | int =>
    rw [read, read, htrim]
    cases Integer.read (Text.trimChars raw'.toList) <;> rfl
  | float =>
    rw [read, read, htrim]
    cases Binary64.read (Text.trimChars raw'.toList) <;> rfl
  | uuid =>
    rw [read, read, htrim]
    cases Uuid.read (Text.trimChars raw'.toList) <;> rfl
  | date =>
    rw [read, read, htrim]
    cases Date.read? (Text.trimChars raw'.toList) <;> rfl
  | dateTime =>
    rw [read, read, htrim]
    rcases DateTime.read (Text.trimChars raw'.toList) with (_ | _) | _ <;> rfl
  | enum name =>
    rw [read, read, Constant.read, Constant.read, htrim']
    cases s.enumeration name with
    | error e => rfl
    | ok e =>
      rw [ok_bind, ok_bind]
      dsimp only
      cases Integer.read? (Text.trim raw').toList with
      | some n => rfl
      | none => cases e.ordinalOf? (Text.trim raw') <;> rfl
  | record name => rw [read, read]; rfl
  | shape id => rw [read, read]; rfl
  | list elem => rw [read, read]; rfl

theorem read_of_ne_empty (hraw : raw ≠ "") : read s raw ty = read s raw ty.core := by
  induction ty with
  | nullable inner ih =>
    have hempty : raw.isEmpty = false := by
      rw [← Bool.not_eq_true, String.isEmpty_iff]
      exact hraw
    rw [read_nullable, hempty, Bool.false_and, if_neg Bool.false_ne_true, ih]
    rfl
  | _ => rfl

theorem read_empty (hnull : ty.isNullable = true) (hty : ty.core ≠ .string) :
    read s "" ty = .ok .null := by
  cases ty with
  | nullable inner =>
    have htext : inner.isText = false := Ty.isText_eq_false hty
    rw [read_nullable, htext]
    rfl
  | _ => cases hnull

theorem read_core_ne_null : read s raw ty.core ≠ .ok .null :=
  fun h => Filter.read_ne_null ty.not_isNullable_core h rfl

/-- Blanks around a text leave the result and the kind of error as they are, unless the text is empty and
means null. -/
theorem code_read_surrounded {before after : String} (hty : ty.core ≠ .string)
    (hbefore : ∀ c ∈ before.toList, Text.isBlank c = true)
    (hafter : ∀ c ∈ after.toList, Text.isBlank c = true)
    (h : ty.isNullable = true → raw = "" → before ++ after = "") :
    (read s (before ++ raw ++ after) ty).mapError Error.code =
      (read s raw ty).mapError Error.code := by
  have htrim : Text.trimChars (before ++ raw ++ after).toList = Text.trimChars raw.toList := by
    rw [String.toList_append, String.toList_append]
    exact Text.trimChars_append hbefore hafter
  by_cases hraw : raw = ""
  · cases hnull : ty.isNullable with
    | false =>
      rw [Ty.core_of_not_isNullable hnull] at hty
      exact code_read_of_trimChars hnull hty htrim
    | true =>
      subst hraw
      rw [String.append_empty, h hnull rfl]
  · have hsurrounded : before ++ raw ++ after ≠ "" := by simp [hraw]
    rw [read_of_ne_empty hraw, read_of_ne_empty hsurrounded]
    exact code_read_of_trimChars ty.not_isNullable_core hty htrim

/-- Where the empty text means null, no other text does. -/
theorem toOption_read_ne_empty (hnull : ty.isNullable = true) (hty : ty.core ≠ .string)
    (hraw : raw ≠ "") : (read s raw ty).toOption ≠ (read s "" ty).toOption := by
  intro h
  rw [read_empty hnull hty, read_of_ne_empty hraw] at h
  cases hread : read s raw ty.core with
  | error e =>
    rw [hread] at h
    cases h
  | ok v =>
    rw [hread] at h
    cases h
    exact read_core_ne_null hread

/-- **Blanks around a text do not count where the type is not text**, and the kind of error is the same
without them. The exception is the empty text where it means null: with blanks it does not. -/
theorem read_surrounded {before after : String} (hty : ty.core ≠ .string)
    (hbefore : ∀ c ∈ before.toList, Text.isBlank c = true)
    (hafter : ∀ c ∈ after.toList, Text.isBlank c = true) :
    ((read s (before ++ raw ++ after) ty).toOption = (read s raw ty).toOption ↔
      (ty.isNullable = true → raw = "" → before ++ after = "")) ∧
      ((ty.isNullable = true → raw = "" → before ++ after = "") →
        (read s (before ++ raw ++ after) ty).mapError Error.code =
          (read s raw ty).mapError Error.code) := by
  have hcode := @code_read_surrounded s raw ty before after hty hbefore hafter
  refine ⟨⟨fun h hnull hraw => ?_, fun h => ?_⟩, hcode⟩
  · by_contra hne
    subst hraw
    rw [String.append_empty] at h
    exact toOption_read_ne_empty hnull hty hne h
  · rw [← toOption_mapError Error.code, hcode h, toOption_mapError]

/-- A number with blanks around it is the number, also where the empty text means null. -/
theorem read_surrounded_number :
    (read ⟨[], []⟩ ("\t " ++ "42" ++ "\u3000") (.nullable .int)).toOption =
        (read ⟨[], []⟩ "42" (.nullable .int)).toOption ∧
      (read ⟨[], []⟩ ("\t " ++ "42" ++ "\u3000") (.nullable .int)).mapError Error.code =
        (read ⟨[], []⟩ "42" (.nullable .int)).mapError Error.code := by
  have hbefore : ∀ c ∈ "\t ".toList, Text.isBlank c = true := List.all_eq_true.1 rfl
  have hafter : ∀ c ∈ "\u3000".toList, Text.isBlank c = true := List.all_eq_true.1 rfl
  have hread := @read_surrounded ⟨[], []⟩ "42" (.nullable .int) "\t " "\u3000" (by decide) hbefore hafter
  exact ⟨hread.1.2 (by decide), hread.2 (by decide)⟩

/-- The empty text is null, and a blank one is not read at all. -/
theorem read_blank_nullable : read ⟨[], []⟩ "" (.nullable .int) = .ok .null ∧
    (read ⟨[], []⟩ " " (.nullable .int)).toOption = none :=
  ⟨rfl, rfl⟩

end Value

end RecordQuery
