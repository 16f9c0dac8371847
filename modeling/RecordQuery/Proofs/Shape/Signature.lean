import Mathlib.Data.List.Basic
import Mathlib.Tactic.Tauto
import RecordQuery.Proofs.Outcome
import RecordQuery.Schema.Basic
import RecordQuery.Shape.Basic

/-!
# Reading the key of a field list

The key of a shape joins `name~type` pairs with `|`. A name holds neither separator, so the name at
the head of a key is the same for all field lists with that key; the text of a type is not checked,
and where it ends is not always clear.

* `Signature.Accepted` : the field lists that a shape can have;
* `Accepted.eq_of_subset` : a list of some of the fields, with the same key, is the same list;
* `Ty.Legible s` : the name of the type reads back in the catalog `s` and holds no `|`;
* `Accepted.eq_of_legible` : keys of lists with legible types are equal only for equal lists.
-/

namespace RecordQuery

section Words
variable {α : Type} {c : α}

/-- A word without `c` is known from a list in which it ends at `c` or at the end of the list. -/
theorem append_inj_of_notMem {xs ys as bs : List α} (hx : c ∉ xs) (hy : c ∉ ys)
    (ha : ∀ d ∈ as.head?, d = c) (hb : ∀ d ∈ bs.head?, d = c) (h : xs ++ as = ys ++ bs) :
    xs = ys ∧ as = bs := by
  induction xs generalizing ys with
  | nil =>
    cases ys with
    | nil => exact ⟨rfl, h⟩
    | cons y ys =>
      rw [List.nil_append] at h
      have hyc : y = c := ha y (by rw [h]; rfl)
      exact absurd (hyc ▸ List.mem_cons_self) hy
  | cons x xs ih =>
    cases ys with
    | nil =>
      rw [List.nil_append] at h
      have hxc : x = c := hb x (by rw [← h]; rfl)
      exact absurd (hxc ▸ List.mem_cons_self) hx
    | cons y ys =>
      obtain ⟨hxy, h⟩ := List.cons.inj h
      obtain ⟨hxs, has⟩ := ih (fun hm => hx (List.mem_cons_of_mem x hm))
        (fun hm => hy (List.mem_cons_of_mem y hm)) h
      exact ⟨by rw [hxy, hxs], has⟩

end Words

namespace Signature

/-! ## Accepted field lists -/

def Accepted (fields : List Field) : Prop := check [] fields = .ok ()

instance (fields : List Field) : Decidable (Accepted fields) :=
  match h : check [] fields with
  | .ok () => isTrue h
  | .error _ => isFalse (by simp [Accepted, h])

def Plain (name : String) : Prop := name ≠ "" ∧ '~' ∉ name.toList ∧ '|' ∉ name.toList

theorem any_separator_eq_false {name : String} :
    (name.toList.any fun c => c == '~' || c == '|') = false ↔
      '~' ∉ name.toList ∧ '|' ∉ name.toList := by
  rw [List.any_eq_false]
  constructor
  · intro h
    exact ⟨fun hm => h _ hm rfl, fun hm => h _ hm rfl⟩
  · rintro ⟨h1, h2⟩ c hc hsep
    rw [Bool.or_eq_true, beq_iff_eq, beq_iff_eq] at hsep
    rcases hsep with rfl | rfl
    · exact h1 hc
    · exact h2 hc

theorem check_cons_eq_ok {seen : List String} {f : Field} {fields : List Field} :
    check seen (f :: fields) = .ok () ↔
      Plain f.name ∧ f.name ∉ seen ∧ check (f.name :: seen) fields = .ok () := by
  rw [Plain, ← any_separator_eq_false, ← List.contains_iff_mem, ne_eq, ← String.isEmpty_iff, check]
  generalize f.name.isEmpty = empty
  generalize (f.name.toList.any fun c => c == '~' || c == '|') = reserved
  generalize seen.contains f.name = repeated
  cases empty <;> cases reserved <;> cases repeated <;> simp

theorem check_eq_ok {seen : List String} {fields : List Field} :
    check seen fields = .ok () ↔ (∀ f ∈ fields, Plain f.name) ∧ (fields.map Field.name).Nodup ∧
      ∀ f ∈ fields, f.name ∉ seen := by
  induction fields generalizing seen with
  | nil => simp [check]
  | cons f fields ih =>
    rw [check_cons_eq_ok, ih, List.forall_mem_cons, List.forall_mem_cons, List.map_cons,
      List.nodup_cons]
    have hdisjoint : (∀ g ∈ fields, g.name ∉ f.name :: seen) ↔
        f.name ∉ fields.map Field.name ∧ ∀ g ∈ fields, g.name ∉ seen := by
      simp only [List.mem_cons, not_or, List.mem_map, not_exists, not_and]
      exact ⟨fun h => ⟨fun g hg => (h g hg).1, fun g hg => (h g hg).2⟩,
        fun h g hg => ⟨h.1 g hg, h.2 g hg⟩⟩
    rw [hdisjoint]
    tauto

theorem accepted_iff {fields : List Field} :
    Accepted fields ↔ (∀ f ∈ fields, Plain f.name) ∧ (fields.map Field.name).Nodup := by
  simp [Accepted, check_eq_ok]

theorem Accepted.tail {f : Field} {fields : List Field} (h : Accepted (f :: fields)) :
    Accepted fields := by
  rw [accepted_iff] at h ⊢
  exact ⟨(List.forall_mem_cons.1 h.1).2, (List.nodup_cons.1 h.2).2⟩

theorem read_eq_ok {fields : List Field} {key : String} :
    read fields = .ok key ↔ Accepted fields ∧ key = text fields := by
  rw [read, bind_eq_ok]
  constructor
  · rintro ⟨_, hcheck, hkey⟩
    exact ⟨hcheck, (Except.ok.inj hkey).symm⟩
  · rintro ⟨hcheck, rfl⟩
    exact ⟨(), hcheck, rfl⟩

/-! ## Keys as characters -/

def restChars : List Field → List Char
  | [] => []
  | f :: fields => '|' :: (text (f :: fields)).toList

theorem toList_text_cons (f : Field) (fields : List Field) :
    (text (f :: fields)).toList =
      f.name.toList ++ '~' :: (f.ty.text.toList ++ restChars fields) := by
  cases fields with
  | nil => simp [text, Text.joined, restChars]
  | cons g fields => simp [text, Text.joined, restChars]

theorem restChars_head (fields : List Field) : ∀ d ∈ (restChars fields).head?, d = '|' := by
  cases fields <;> simp [restChars]

theorem text_nil_ne_text_cons (f : Field) (fields : List Field) : text [] ≠ text (f :: fields) := by
  intro h
  have h' := congrArg String.toList h
  rw [toList_text_cons] at h'
  simp [text, Text.joined] at h'

theorem restChars_inj {fs gs : List Field} (h : restChars fs = restChars gs) : text fs = text gs := by
  cases fs with
  | nil =>
    cases gs with
    | nil => rfl
    | cons g gs => cases h
  | cons f fs =>
    cases gs with
    | nil => cases h
    | cons g gs => exact String.toList_inj.1 (List.cons.inj h).2

/-- The name at the head of a key is read in one way only. -/
theorem text_cons_inj {f g : Field} {fs gs : List Field} (hf : Plain f.name) (hg : Plain g.name)
    (h : text (f :: fs) = text (g :: gs)) :
    f.name = g.name ∧ f.ty.text.toList ++ restChars fs = g.ty.text.toList ++ restChars gs := by
  have h' := congrArg String.toList h
  rw [toList_text_cons, toList_text_cons] at h'
  obtain ⟨hname, hrest⟩ := append_inj_of_notMem hf.2.1 hg.2.1 (by simp) (by simp) h'
  exact ⟨String.toList_inj.1 hname, (List.cons.inj hrest).2⟩

/-! ## Fields of equal keys -/

/-- **Some of the fields of an accepted list make its key only if they are the whole list.** -/
theorem Accepted.eq_of_subset {fs gs : List Field} (hf : Accepted fs) (hg : Accepted gs)
    (hsub : ∀ g ∈ gs, g ∈ fs) (h : text fs = text gs) : gs = fs := by
  induction fs generalizing gs with
  | nil => exact List.eq_nil_iff_forall_not_mem.2 fun g hmem => nomatch hsub g hmem
  | cons f fs ih =>
    cases gs with
    | nil => exact absurd h.symm (text_nil_ne_text_cons f fs)
    | cons g gs =>
      obtain ⟨hfp, hfn⟩ := accepted_iff.1 hf
      obtain ⟨hgp, hgn⟩ := accepted_iff.1 hg
      obtain ⟨hname, hrest⟩ := text_cons_inj (hfp f List.mem_cons_self) (hgp g List.mem_cons_self) h
      -- Names are distinct, so the field of that name in `f :: fs` is `f`.
      have hgf : g = f := by
        rcases List.mem_cons.1 (hsub g List.mem_cons_self) with hgf | hmem
        · exact hgf
        · exact absurd (List.mem_map.2 ⟨g, hmem, hname.symm⟩) (List.nodup_cons.1 hfn).1
      subst hgf
      have hsub' : ∀ g' ∈ gs, g' ∈ fs := by
        intro g' hmem
        rcases List.mem_cons.1 (hsub g' (List.mem_cons_of_mem g hmem)) with rfl | hmem'
        · exact absurd (List.mem_map.2 ⟨g', hmem, rfl⟩) (List.nodup_cons.1 hgn).1
        · exact hmem'
      rw [ih hf.tail hg.tail hsub' (restChars_inj (List.append_cancel_left hrest))]

end Signature

/-- The name of the type reads back as the type, and does not hold the separator of fields. -/
def Ty.Legible (s : Schema) (ty : Ty) : Prop := Ty.read s ty.text = .ok ty ∧ '|' ∉ ty.text.toList

theorem Ty.Legible.eq_of_text_eq {s : Schema} {a b : Ty} (ha : a.Legible s) (hb : b.Legible s)
    (h : a.text = b.text) : a = b :=
  Except.ok.inj (ha.1.symm.trans (h ▸ hb.1))

/-- **Keys of lists with legible types are equal only for equal lists.** -/
theorem Signature.Accepted.eq_of_legible {s : Schema} {fs gs : List Field} (hf : Accepted fs)
    (hg : Accepted gs) (hfl : ∀ f ∈ fs, f.ty.Legible s) (hgl : ∀ g ∈ gs, g.ty.Legible s)
    (h : text fs = text gs) : fs = gs := by
  induction fs generalizing gs with
  | nil =>
    cases gs with
    | nil => rfl
    | cons g gs => exact absurd h (text_nil_ne_text_cons g gs)
  | cons f fs ih =>
    cases gs with
    | nil => exact absurd h.symm (text_nil_ne_text_cons f fs)
    | cons g gs =>
      rw [List.forall_mem_cons] at hfl hgl
      obtain ⟨hname, hrest⟩ := text_cons_inj ((accepted_iff.1 hf).1 f List.mem_cons_self)
        ((accepted_iff.1 hg).1 g List.mem_cons_self) h
      obtain ⟨hty, htail⟩ := append_inj_of_notMem hfl.1.2 hgl.1.2 (restChars_head fs)
        (restChars_head gs) hrest
      have hfg : f = g := by
        cases f
        cases g
        rw [Field.mk.injEq]
        exact ⟨hname, hfl.1.eq_of_text_eq hgl.1 (String.toList_inj.1 hty)⟩
      rw [hfg, ih hf.tail hg.tail hfl.2 hgl.2 (restChars_inj htail)]

end RecordQuery
