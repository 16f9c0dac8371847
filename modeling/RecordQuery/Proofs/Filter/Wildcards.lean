import RecordQuery.Proofs.Filter.Agreement
import RecordQuery.Proofs.Text.Occurrence

/-!
# What a text filter means

A text filter without segments holds everywhere. Any other needs a path to a property of text, and
holds where one of its segments, read with its wildcards, fits the text that the path leads to.

* `Fits` : a segment fits a text;
* `segment_ofSegment` : a segment but the lone `%` is read back from the pattern that it asks for;
* `fits_iff` : a segment fits a text exactly if its pattern does;
* `compileText_of_error`, `compileText_of_not_isText` : the text filters that are refused;
* `compileText_meaning` : when a text filter is refused, and where it holds.
-/

namespace RecordQuery.Filter

/-! ## Segments with wildcards -/

/-- The segment fits the text. A `%` at an end of it stands for any text. -/
inductive Fits : String → String → Prop
  | any (t : String) : Fits "%" t
  | within {m t : String} (h : m.toList <:+: t.toList) : Fits ("%" ++ m ++ "%") t
  | atEnd {m t : String} (hm : m.toList.getLast? ≠ some '%') (h : m.toList <:+ t.toList) :
      Fits ("%" ++ m) t
  | atStart {m t : String} (hm : m.toList.head? ≠ some '%') (h : m.toList <+: t.toList) :
      Fits (m ++ "%") t
  | whole {t : String} (hhead : t.toList.head? ≠ some '%') (hlast : t.toList.getLast? ≠ some '%') :
      Fits t t

namespace Pattern

def Fits : Pattern → String → Prop
  | .contains needle, t => needle.toList <:+: t.toList
  | .startsWith needle, t => needle.toList <+: t.toList
  | .endsWith needle, t => needle.toList <:+ t.toList
  | .equals needle, t => t = needle

theorem truthOn_eq_true_iff {q : Pattern} {t : String} :
    q.truthOn (.string t) = some true ↔ q.Fits t := by
  unfold truthOn
  rw [Option.some.injEq]
  cases q with
  | contains needle => exact Text.contains_iff
  | startsWith needle => exact Text.startsWith_iff
  | endsWith needle => exact Text.endsWith_iff
  | equals needle => exact beq_iff_eq

/-- A segment is read back from its pattern, but for the lone `%`, which asks for nothing. -/
theorem segment_ofSegment {g : String} (hg : g ≠ "%") :
    (ofSegment g).segment = g ∧ (ofSegment g).IsWritable := by
  have hchars : g.toList ≠ ['%'] := fun h => hg (String.toList_injective h)
  -- What follows a wildcard in front is not empty, so its last character is the segment's.
  have htail (hhead : (g.toList.head? == some '%') = true) : ∃ c cs, g.toList = '%' :: c :: cs := by
    obtain ⟨cs, hcs⟩ := List.head?_eq_some_iff.1 (eq_of_beq hhead)
    obtain ⟨c, cs, rfl⟩ := List.exists_cons_of_ne_nil (l := cs) (by rintro rfl; exact hchars hcs)
    exact ⟨c, cs, hcs⟩
  unfold ofSegment
  dsimp only
  split
  · rename_i hhead hlast
    obtain ⟨c, cs, hcs⟩ := htail hhead
    rw [hcs, List.getLast?_cons_cons] at hlast
    have hrest := List.dropLast_append_getLast? _ (eq_of_beq hlast)
    refine ⟨String.toList_injective ?_, trivial⟩
    rw [hcs, List.tail_cons]
    simpa [segment] using hrest
  · rename_i hhead hlast
    obtain ⟨c, cs, hcs⟩ := htail hhead
    rw [hcs, List.getLast?_cons_cons] at hlast
    rw [hcs, List.tail_cons]
    refine ⟨String.toList_injective ?_, ?_⟩
    · simp [segment, hcs]
    · simpa [IsWritable] using hlast
  · rename_i hhead hlast
    have hrest := List.dropLast_append_getLast? _ (eq_of_beq hlast)
    refine ⟨String.toList_injective ?_, ?_⟩
    · simpa [segment] using hrest
    · cases hdrop : g.toList.dropLast with
      | nil => simp [IsWritable]
      | cons c cs =>
        rw [hdrop] at hrest
        rw [← hrest] at hhead
        simpa [IsWritable] using hhead
  · rename_i hhead hlast
    exact ⟨rfl, beq_eq_false_iff_ne.1 hhead, beq_eq_false_iff_ne.1 hlast⟩

/-- A text that a written pattern asks for is one that its segment asks for, also where the wildcards
leave nothing of the segment. -/
theorem fits_ofSegment_segment {q : Pattern} {t : String} (h : q.Fits t) (hq : q.IsWritable) :
    (ofSegment q.segment).Fits t := by
  by_cases hne : q.needle = ""
  · cases q with
    | contains needle | equals needle =>
      cases (show needle = "" from hne)
      exact h
    | startsWith needle | endsWith needle =>
      cases (show needle = "" from hne)
      exact List.nil_infix
  · rw [ofSegment_segment hne hq]
    exact h

end Pattern

/-- **A segment fits a text exactly if the pattern that it asks for does.** -/
theorem fits_iff {g t : String} : Fits g t ↔ (Pattern.ofSegment g).Fits t := by
  constructor
  · intro h
    cases h with
    | any => exact List.nil_infix
    | @within m _ h => exact Pattern.fits_ofSegment_segment (q := .contains m) h trivial
    | @atEnd m _ hm h => exact Pattern.fits_ofSegment_segment (q := .endsWith m) h hm
    | @atStart m _ hm h => exact Pattern.fits_ofSegment_segment (q := .startsWith m) h hm
    | whole hhead hlast =>
      exact Pattern.fits_ofSegment_segment (q := .equals g) rfl ⟨hhead, hlast⟩
  · intro h
    by_cases hg : g = "%"
    · rw [hg]
      exact .any t
    · obtain ⟨hsegment, hwritable⟩ := Pattern.segment_ofSegment hg
      generalize Pattern.ofSegment g = q at h hsegment hwritable
      subst hsegment
      cases q with
      | contains needle => exact .within h
      | startsWith needle => exact .atStart hwritable h
      | endsWith needle => exact .atEnd hwritable h
      | equals needle =>
        cases (show t = needle from h)
        exact .whole hwritable.1 hwritable.2

instance : DecidableRel Fits := fun _ _ =>
  decidable_of_iff _ (Pattern.truthOn_eq_true_iff.trans fits_iff.symm)

/-! ## Text filters -/

open RecordQuery.Expr

variable {s : Schema} {o : Options} {id : Nat} {root : Ty} {path text : String} {property : Expr}

theorem compileText_eq_bind (s : Schema) (o : Options) (id : Nat) (root : Ty) (path text : String) :
    compileText s o id root path text =
      (textPredicate s (rootParam o id root) path text >>= fun body =>
        .ok (Lambda.mk (rootParam o id root) body)) := rfl

theorem compileText_of_segments_eq_nil (h : segments text = []) :
    compileText s o id root path text = .ok ⟨rootParam o id root, .alwaysTrue⟩ := by
  rw [compileText_eq_bind, textPredicate, h]
  rfl

theorem compileText_of_error {err : Error} (h : segments text ≠ [])
    (hpath : resolve s (.param (rootParam o id root)) path = .error err) :
    compileText s o id root path text = .error err := by
  rw [compileText_eq_bind, textPredicate, if_neg (by simpa using h), hpath]
  rfl

theorem Pattern.ask_of_not_isText (hty : property.ty.isText = false) (q : Pattern) :
    ∃ operation found, q.ask property = .error (.mismatch operation found) := by
  have haccepts : q.method.accepts property.ty [.string] = false := by
    cases q <;> exact Bool.and_eq_false_imp.2 fun htext => absurd htext (by rw [hty]; simp)
  exact ⟨_, _, if_neg (by rw [List.map_singleton]; exact Bool.eq_false_iff.1 haccepts)⟩

/-- The pattern of the first segment refuses a property that is no text. -/
theorem compileText_of_not_isText (h : segments text ≠ [])
    (hpath : resolve s (.param (rootParam o id root)) path = .ok property)
    (hty : property.ty.isText = false) :
    ∃ operation found, compileText s o id root path text = .error (.mismatch operation found) := by
  obtain ⟨g, gs, hgs⟩ := List.exists_cons_of_ne_nil h
  obtain ⟨operation, found, hask⟩ := Pattern.ask_of_not_isText hty (.ofSegment g)
  refine ⟨operation, found, ?_⟩
  rw [compileText_eq_bind, textPredicate, if_neg (by simpa using h), hpath, ok_bind, hgs,
    List.map_cons, List.mapM_cons, hask]
  rfl

/-- A text filter on a property of text is false on null, and holds on the texts that a segment fits. -/
theorem exists_compileText_fits (h : segments text ≠ [])
    (hpath : resolve s (.param (rootParam o id root)) path = .ok property) (hty : property.ty.isText) :
    ∃ l, compileText s o id root path text = .ok l ∧ ∀ row,
      (row.readPath path = .ok .null → l.test row = .ok false) ∧
      ∀ t, row.readPath path = .ok (.string t) →
        ∃ b, l.test row = .ok b ∧ (b = true ↔ ∃ g ∈ segments text, Fits g t) := by
  obtain ⟨l, hl, htest⟩ := exists_compileText o id hpath hty h
  have hread (row v : Value) (hv : row.readPath path = .ok v) :
      property.eval (rootParam o id root) row = .ok v := (eval_resolve_param hpath).trans hv
  refine ⟨l, hl, fun row => ⟨fun hnull => ?_, fun t ht => ?_⟩⟩
  · rw [htest row .null (hread row _ hnull) (.null _)]
    simp [Pattern.truthOn]
  · refine ⟨_, htest row _ (hread row _ ht) (.string t), ?_⟩
    simp [Pattern.truthOn_eq_true_iff, fits_iff]

/-- **When a text filter is refused, and where it holds.** A text without segments gives a filter that
holds on every row, whatever its path. Any other text gives the error of the path if there is one,
and a mismatch of types exactly if the path leads to something that is no text. Otherwise the filter is
false on the rows where the path reads null, and on those where it reads a text it holds exactly if one
of the segments fits this text. -/
theorem compileText_meaning (s : Schema) (o : Options) (id : Nat) (root : Ty) (path text : String) :
    (segments text = [] →
      ∃ l, compileText s o id root path text = .ok l ∧ ∀ row, l.test row = .ok true) ∧
    (segments text ≠ [] →
      (∀ err, resolve s (.param (rootParam o id root)) path = .error err ↔
        compileText s o id root path text = .error err ∧ err.code ≠ "TypeMismatch") ∧
      ((∃ err, compileText s o id root path text = .error err ∧ err.code = "TypeMismatch") ↔
        ∃ property, resolve s (.param (rootParam o id root)) path = .ok property ∧
          property.ty.isText = false) ∧
      ∀ property, resolve s (.param (rootParam o id root)) path = .ok property →
        property.ty.isText = true →
        ∃ l, compileText s o id root path text = .ok l ∧ ∀ row,
          (row.readPath path = .ok .null → l.test row = .ok false) ∧
          ∀ t, row.readPath path = .ok (.string t) →
            ∃ b, l.test row = .ok b ∧ (b = true ↔ ∃ g ∈ segments text, Fits g t)) := by
  refine ⟨fun h => ⟨_, compileText_of_segments_eq_nil h, fun row => rfl⟩, fun h => ?_⟩
  cases hpath : resolve s (.param (rootParam o id root)) path with
  | error err =>
    have hcode : err.code ≠ "TypeMismatch" := by
      rcases resolve_eq_error hpath with ⟨_, _, rfl⟩ | ⟨_, rfl⟩ <;> simp [Error.code]
    rw [compileText_of_error h hpath]
    refine ⟨fun err' => ?_, ⟨?_, nofun⟩, nofun⟩
    · constructor
      · rintro ⟨⟩
        exact ⟨rfl, hcode⟩
      · rintro ⟨⟨⟩, -⟩
        rfl
    · rintro ⟨_, ⟨⟩, hmismatch⟩
      exact absurd hmismatch hcode
  | ok property =>
    cases hty : property.ty.isText with
    | false =>
      obtain ⟨operation, found, hcompile⟩ := compileText_of_not_isText h hpath hty
      rw [hcompile]
      refine ⟨fun err' => ⟨nofun, ?_⟩, ⟨fun _ => ⟨property, rfl, hty⟩, fun _ => ⟨_, rfl, rfl⟩⟩, ?_⟩
      · rintro ⟨⟨⟩, hcode⟩
        exact absurd rfl hcode
      · rintro _ ⟨⟩ htext
        exact absurd (hty.symm.trans htext) (by simp)
    | true =>
      obtain ⟨l, hl, hrows⟩ := exists_compileText_fits h hpath hty
      rw [hl]
      refine ⟨fun err' => ⟨nofun, ?_⟩, ⟨?_, ?_⟩, fun _ _ _ => ⟨l, rfl, hrows⟩⟩
      · rintro ⟨⟨⟩, -⟩
      · rintro ⟨_, ⟨⟩, -⟩
      · rintro ⟨_, ⟨⟩, hnot⟩
        exact absurd (hty.symm.trans hnot) (by simp)

/-! ## A filter with wildcards on names -/

/-- The last segment is in quotes, so its letters do not separate. -/
def offersText : String := r#"%off OR Ann% or "or""#

theorem segments_offersText : segments offersText = ["%off", "Ann%", "or"] := by decide +kernel

/-- An offer ends with `off`. -/
theorem compileText_offers :
    segments offersText ≠ [] ∧
    ∃ l, compileText contacts {} 1 (.record "Contact") "Name" offersText = .ok l ∧
      l.test discount = .ok true ∧ l.test (.record [("Name", .string "Joann")]) = .ok false ∧
      l.test (.record []) = .ok false := by
  have hsegments : segments offersText ≠ [] := by
    rw [segments_offersText]
    decide
  obtain ⟨-, -, hmeaning⟩ :=
    (compileText_meaning contacts {} 1 (.record "Contact") "Name" offersText).2 hsegments
  rw [segments_offersText] at hmeaning
  obtain ⟨l, hl, hrows⟩ :=
    hmeaning (.field (.param (rootParam {} 1 (.record "Contact"))) "Name" (.nullable .string)) rfl rfl
  refine ⟨hsegments, l, hl, ?_, ?_, (hrows _).1 rfl⟩
  · obtain ⟨b, hb, hfits⟩ := (hrows discount).2 "or % off" rfl
    rw [hb, hfits.2 (by decide)]
  · obtain ⟨b, hb, hfits⟩ := (hrows (.record [("Name", .string "Joann")])).2 "Joann" rfl
    rw [hb, Bool.eq_false_iff.2 fun h => absurd (hfits.1 h) (by decide)]

end RecordQuery.Filter
