import RecordQuery.Proofs.Calendar.Utc
import RecordQuery.Proofs.Value.Blanks

/-!
# Texts that abort a run

Reading ends with a value or an error, but for one kind of text: a moment in the form of RFC 3339 whose
date in UTC is behind the calendar aborts the run.

* `PastCalendar` : the texts of this kind;
* `Value.error_of_read` : the errors of reading;
* `Value.read_aborts_iff` : reading aborts for such a text alone, where the type asks for a moment;
* `Value.read_zoned` : a text in the form of RFC 3339 is read as the same instant;
* `AbortsOnlyIf` : computations that abort only under a condition, and how they are composed;
* `Json.HasText`, `Value.ofJson_abortsOnlyIf` : values from JSON.
-/

namespace RecordQuery

/-- The text names an instant behind the last day of the calendar, not as a leap second. -/
def PastCalendar (raw : String) : Prop :=
  ∃ z, Zoned.read? (Text.trimChars raw.toList) = some z ∧ z.leapSecond = false ∧
    Calendar.endInstant ≤ z.instant

theorem not_pastCalendar_empty : ¬PastCalendar "" := by
  rintro ⟨z, h, -⟩
  cases h

namespace Value
variable {s : Schema} {raw : String} {ty : Ty} {e : Error}

theorem read_dateTime_aborts_iff : read s raw .dateTime = .error .beyondCalendar ↔ PastCalendar raw := by
  unfold PastCalendar
  rw [← DateTime.read_eq_beyondCalendar_iff, read]
  cases DateTime.read (Text.trimChars raw.toList) with
  | ok t => simp
  | error fault => cases fault <;> simp

/-- What an error of reading is: an abort, a text that does not convert, or an enumeration that is not
declared. -/
theorem error_of_read (h : read s raw ty = .error e) : (ty.core = .dateTime ∧ e = .beyondCalendar) ∨
    e.code = "ValueConversion" ∨ ∃ name, ty.core = .enum name ∧ e = .schema (.unknownEnum name) := by
  induction ty with
  | nullable inner ih =>
    rw [read_nullable] at h
    split at h
    · cases h
    · exact ih h
  | string => cases h
  | bool =>
    rw [read] at h
    split at h
    · cases h
    · split at h <;> cases h
      exact .inr (.inl rfl)
  | int =>
    rw [read] at h
    cases hraw : Integer.read (Text.trimChars raw.toList) <;> rw [hraw] at h <;> cases h
    exact .inr (.inl rfl)
  | float =>
    rw [read] at h
    cases hraw : Binary64.read (Text.trimChars raw.toList) <;> rw [hraw] at h <;> cases h
    exact .inr (.inl rfl)
  | uuid =>
    rw [read] at h
    cases hraw : Uuid.read (Text.trimChars raw.toList) <;> rw [hraw] at h <;> cases h
    exact .inr (.inl rfl)
  | date =>
    rw [read] at h
    cases hraw : Date.read? (Text.trimChars raw.toList) <;> rw [hraw] at h <;> cases h
    exact .inr (.inl rfl)
  | dateTime =>
    rw [read] at h
    rcases hraw : DateTime.read (Text.trimChars raw.toList) with (_ | _) | t <;> rw [hraw] at h <;> cases h
    · exact .inr (.inl rfl)
    · exact .inl ⟨rfl, rfl⟩
  | enum name =>
    rw [read, map_eq_error, Constant.read, bind_eq_error] at h
    rcases h with h | ⟨e, -, h⟩
    · refine .inr (.inr ⟨name, rfl, ?_⟩)
      unfold Schema.enumeration at h
      cases hname : s.enumeration? name <;> rw [hname] at h <;> cases h
      rfl
    · dsimp only at h
      cases hordinal : Integer.read? (Text.trim raw).toList with
      | some n => rw [hordinal] at h; cases h
      | none =>
        rw [hordinal] at h
        dsimp only at h
        cases hname : e.ordinalOf? (Text.trim raw) <;> rw [hname] at h <;> cases h
        exact .inr (.inl rfl)
  | record name =>
    cases h
    exact .inr (.inl rfl)
  | shape id =>
    cases h
    exact .inr (.inl rfl)
  | list elem =>
    cases h
    exact .inr (.inl rfl)

/-- **Reading aborts for a text past the calendar alone**, where the type asks for a moment. -/
theorem read_aborts_iff :
    read s raw ty = .error .beyondCalendar ↔ ty.core = .dateTime ∧ PastCalendar raw := by
  induction ty with
  | nullable inner ih =>
    rw [read_nullable]
    split
    · rename_i hempty
      rw [Bool.and_eq_true, String.isEmpty_iff] at hempty
      refine iff_of_false nofun fun h => not_pastCalendar_empty ?_
      exact hempty.1 ▸ h.2
    · exact ih
  | dateTime => exact read_dateTime_aborts_iff.trans (and_iff_right rfl).symm
  | _ =>
    refine iff_of_false (fun h => ?_) nofun
    rcases error_of_read h with ⟨hty, -⟩ | hcode | ⟨name, -, herr⟩
    · cases hty
    · exact absurd hcode (by decide)
    · cases herr

/-- **A text in the form of RFC 3339 is read as the same instant in UTC**, unless it is past the calendar.
A leap second may also not convert. -/
theorem read_zoned {z : Zoned} (hty : ty.core = .dateTime)
    (hz : Zoned.read? (Text.trimChars raw.toList) = some z) :
    (∃ t, read s raw ty = .ok (.dateTime t) ∧ t.instant = z.instant) ∨
      (∃ e, read s raw ty = .error e ∧ e.code = "ValueConversion" ∧ z.leapSecond = true) ∨
      PastCalendar raw := by
  have hraw : raw ≠ "" := by
    rintro rfl
    cases hz
  rw [read_of_ne_empty hraw, hty, read]
  rcases DateTime.read_of_zoned hz with ⟨-, t, ht, hread | ⟨hleap, hread⟩⟩ | ⟨hend, hread⟩
  · rw [hread]
    exact .inl ⟨t, rfl, ht⟩
  · rw [hread]
    exact .inr (.inl ⟨_, rfl, rfl, hleap⟩)
  · cases hleap : z.leapSecond with
    | true =>
      rw [hread, hleap]
      exact .inr (.inl ⟨_, rfl, rfl, rfl⟩)
    | false => exact .inr (.inr ⟨z, hz, hleap, hend⟩)

end Value

/-! ## Computations -/

/-- The computation aborts only under the condition. -/
def AbortsOnlyIf {α : Type} (P : Prop) (x : Except Error α) : Prop := x = .error .beyondCalendar → P

namespace AbortsOnlyIf
variable {α β : Type} {P Q : Prop} {x : Except Error α}

theorem ok (a : α) : AbortsOnlyIf P (.ok a) := nofun

theorem of_ne {e : Error} (h : e ≠ .beyondCalendar) : AbortsOnlyIf P (.error e : Except Error α) := by
  intro herr
  exact absurd (Except.error.inj herr) h

theorem of_codes (h : ∀ e, x = .error e → e.code ≠ "Calendar") : AbortsOnlyIf P x := by
  intro herr
  exact absurd rfl (h _ herr)

theorem mono (h : AbortsOnlyIf P x) (hPQ : P → Q) : AbortsOnlyIf Q x := fun herr => hPQ (h herr)

theorem bind {f : α → Except Error β} (hx : AbortsOnlyIf P x)
    (hf : ∀ a, x = .ok a → AbortsOnlyIf P (f a)) : AbortsOnlyIf P (x >>= f) := by
  intro herr
  rcases bind_eq_error.1 herr with h | ⟨a, ha, h⟩
  · exact hx h
  · exact hf a ha h

theorem map (hx : AbortsOnlyIf P x) (f : α → β) : AbortsOnlyIf P (x.map f) :=
  fun herr => hx (map_eq_error.1 herr)

theorem mapM {f : α → Except Error β} {xs : List α} (h : ∀ a ∈ xs, AbortsOnlyIf P (f a)) :
    AbortsOnlyIf P (xs.mapM f) := by
  intro herr
  obtain ⟨before, a, rest, rfl, -, ha⟩ := mapM_eq_error.1 herr
  exact h a (by simp) ha

theorem forM {f : α → Except Error Unit} {xs : List α} (h : ∀ a ∈ xs, AbortsOnlyIf P (f a)) :
    AbortsOnlyIf P (xs.forM f) := by
  induction xs with
  | nil => exact .ok ()
  | cons a xs ih =>
    refine (h a List.mem_cons_self).bind fun _ _ => ?_
    exact ih fun a' ha' => h a' (List.mem_cons_of_mem a ha')

theorem foldlM {f : β → α → Except Error β} {xs : List α} (h : ∀ b, ∀ a ∈ xs, AbortsOnlyIf P (f b a))
    (b : β) : AbortsOnlyIf P (xs.foldlM f b) := by
  induction xs generalizing b with
  | nil => exact .ok b
  | cons a xs ih =>
    obtain ⟨ha, hxs⟩ : (∀ b, AbortsOnlyIf P (f b a)) ∧ ∀ b, ∀ a ∈ xs, AbortsOnlyIf P (f b a) :=
      ⟨fun b => h b a List.mem_cons_self, fun b a' ha' => h b a' (List.mem_cons_of_mem a ha')⟩
    rw [List.foldlM_cons]
    exact (ha b).bind fun b' _ => ih hxs b'

end AbortsOnlyIf

theorem Value.read_abortsOnlyIf (s : Schema) (raw : String) (ty : Ty) :
    AbortsOnlyIf (PastCalendar raw) (read s raw ty) := fun h => (read_aborts_iff.1 h).2

/-! ## Values from JSON -/

inductive Json.HasText : Json → String → Prop
  | text (raw : String) : HasText (.string raw) raw
  | item {items : List Json} {j : Json} {raw : String} (hj : j ∈ items) (h : HasText j raw) :
      HasText (.array items) raw
  | entry {entries : List (String × Json)} {x : String × Json} {raw : String} (hx : x ∈ entries)
      (h : HasText x.2 raw) : HasText (.object entries) raw

theorem Schema.record_abortsOnlyIf {P : Prop} (s : Schema) (name : String) :
    AbortsOnlyIf P (s.record name) := by
  unfold record
  cases s.record? name with
  | some r => exact .ok r
  | none => exact .of_ne (by simp)

theorem Constant.read_abortsOnlyIf {P : Prop} (s : Schema) (name token : String) :
    AbortsOnlyIf P (Constant.read s name token) := by
  intro h
  have hread : Value.read s token (.enum name) = .error .beyondCalendar := by
    rw [Value.read, h, Except.map]
  cases (Value.read_aborts_iff.1 hread).1

namespace Value

theorem invalidJson_abortsOnlyIf {P : Prop} (ty : Ty) (j : Json) :
    AbortsOnlyIf P (.error (invalidJson ty j) : Except Error Value) :=
  .of_ne (by simp [invalidJson])

/-- **Reading a value from a document aborts only for a text past the calendar in it.** -/
theorem ofJson_abortsOnlyIf (s : Schema) (ty : Ty) (j : Json) :
    AbortsOnlyIf (∃ raw, j.HasText raw ∧ PastCalendar raw) (ofJson s ty j) := by
  induction j using Json.induction generalizing ty with
  | null => exact .ok Value.null
  | bool b =>
    rw [ofJson]
    cases ty.underlying with
    | bool => exact .ok (Value.bool b)
    | _ => exact invalidJson_abortsOnlyIf ty _
  | number n =>
    rw [ofJson]
    cases ty.underlying with
    | int =>
      cases n.int64? with
      | some i => exact .ok (Value.int i)
      | none => exact invalidJson_abortsOnlyIf ty _
    | float => exact .ok (Value.float n.toFloat)
    | enum name =>
      cases n.int64? with
      | some ordinal => exact (Constant.read_abortsOnlyIf s name _).map _
      | none => exact invalidJson_abortsOnlyIf ty _
    | _ => exact invalidJson_abortsOnlyIf ty _
  | string raw =>
    rw [ofJson]
    cases ty.underlying with
    | list _ => exact invalidJson_abortsOnlyIf ty _
    | _ => exact (read_abortsOnlyIf s raw _).mono fun h => ⟨raw, .text raw, h⟩
  | array items ih =>
    rw [ofJson]
    cases ty.underlying with
    | list elem =>
      dsimp only
      rw [ofItems_eq_mapM]
      refine .map (.mapM fun j hj => ?_) _
      refine (ih j hj elem).mono ?_
      rintro ⟨raw, hraw, hpast⟩
      exact ⟨raw, .item hj hraw, hpast⟩
    | _ => exact invalidJson_abortsOnlyIf ty _
  | object entries ih =>
    rw [ofJson]
    cases ty.underlying with
    | record name =>
      refine (s.record_abortsOnlyIf name).bind fun r _ => ?_
      refine .bind (.foldlM (fun fields f _ => ?_) []) fun fields _ => .ok _
      refine .bind ?_ fun v _ => .ok _
      rw [ofEntry_eq]
      cases hentry : entries.lookup f.name with
      | none => exact .ok Value.null
      | some j =>
        obtain ⟨before, after, rfl, -⟩ := List.lookup_eq_some_iff.1 hentry
        have hj : (f.name, j) ∈ before ++ (f.name, j) :: after := by simp
        refine (ih _ hj f.ty).mono ?_
        rintro ⟨raw, hraw, hpast⟩
        exact ⟨raw, .entry hj hraw, hpast⟩
    | _ => exact invalidJson_abortsOnlyIf ty _

end Value

end RecordQuery
