import RecordQuery.Proofs.Expr.Paths
import RecordQuery.Proofs.Filter.RootParameter
import RecordQuery.Proofs.Filter.Segments

/-!
# Text filters and descriptors agree

A text filter that asks for one of several patterns answers as the descriptors of the patterns do.

* `Pattern.truthOn` : whether a value fits a pattern, which is unknown for null;
* `exists_compileText` : a text filter on a text property answers whether a segment's pattern fits;
* `Pattern.descriptor?` : the descriptor that asks for a pattern;
* `exists_compile_descriptor` : it answers whether the pattern fits;
* `compileText_iff_descriptors` : the two ways to write a filter agree.
-/

namespace RecordQuery

theorem Value.equal_string (a b : String) : (Value.string a).equal (.string b) = (a == b) := by
  rw [Bool.eq_iff_iff]
  simp only [equal, eqv, compare, Bool.or_eq_true, beq_iff_eq, Option.some.injEq]
  refine or_iff_left_of_imp fun h => ?_
  exact String.toList_injective (Std.LawfulEqCmp.compare_eq_iff_eq.1 h)

namespace Filter
open RecordQuery.Expr

variable {s : Schema} {p : Param} {property : Expr} {row w : Value}

/-! ## Patterns of values -/

/-- Whether the value fits the pattern; this is unknown for null. -/
def Pattern.truthOn (q : Pattern) : Value → Option Bool
  | .string t => some (q.method.holds t q.needle)
  | _ => none

theorem Pattern.apply_method (q : Pattern) (hw : w.Conforms s .string) :
    q.method.apply w [.string q.needle] = .ok (.ofTruth (q.truthOn w)) := by
  cases hw with
  | null => cases q <;> rfl
  | string t => cases q <;> rfl

def Pattern.call (property : Expr) (q : Pattern) : Expr :=
  .call q.method property [.literal (.string q.needle) .string]

theorem Pattern.accepts_method (q : Pattern) {target arg : Ty} (htarget : target.isText)
    (harg : arg.isText) : q.method.accepts target [arg] :=
  Method.accepts_of_isText (by cases q <;> simp [Pattern.method]) (by cases q <;> simp [Pattern.method])
    htarget harg

theorem Pattern.ask_eq_ok (hty : property.ty.isText) (q : Pattern) :
    q.ask property = .ok (q.call property) :=
  mkCall_eq_ok.2 ⟨q.accepts_method hty rfl, rfl⟩

theorem Pattern.eval_call (q : Pattern) (hw : property.eval p row = .ok w)
    (hconf : w.Conforms s .string) :
    (q.call property).eval p row = .ok (.ofTruth (q.truthOn w)) := by
  rw [Pattern.call, eval_call_singleton hw (eval_literal _ _), q.apply_method hconf]

theorem Pattern.isTest_call (q : Pattern) (property : Expr) : (q.call property).IsTest :=
  .call (by cases q <;> simp [method]) _ _

/-! ## Text filters -/

def textTests (property : Expr) (text : String) : List Expr :=
  ((segments text).map Pattern.ofSegment).map (Pattern.call property)

theorem ty_of_mem_textTests {text : String} : ∀ e ∈ textTests property text, e.ty = .bool := by
  intro e he
  obtain ⟨q, -, rfl⟩ := List.mem_map.1 he
  exact (Pattern.isTest_call q property).ty

theorem textPredicate_eq_ok {path text : String} (h : resolve s (.param p) path = .ok property)
    (hty : property.ty.isText) (hsegments : segments text ≠ []) :
    textPredicate s p path text = .ok ((joined .or (textTests property text)).getD .alwaysTrue) := by
  have hask : ((segments text).map Pattern.ofSegment).mapM (Pattern.ask property) =
      .ok (textTests property text) := by
    refine mapM_eq_ok.2 ?_
    rw [textTests, List.forall₂_map_right_iff, List.forall₂_same]
    exact fun q _ => q.ask_eq_ok hty
  have hfold : fold .or (textTests property text) = .ok (joined .or (textTests property text)) :=
    fold_eq_ok (d := true) rfl ty_of_mem_textTests
  unfold textPredicate
  dsimp only
  rw [if_neg (by simpa using hsegments), h, ok_bind, hask, ok_bind, hfold]
  rfl

/-- The tests of a text filter, joined, answer whether one of its patterns fits. -/
theorem test_textTests {text : String} (hsegments : segments text ≠ [])
    (hw : property.eval p row = .ok w) (hconf : w.Conforms s .string) :
    Lambda.test ⟨p, (joined .or (textTests property text)).getD .alwaysTrue⟩ row =
      .ok (((segments text).map Pattern.ofSegment).any fun q => q.truthOn w == some true) := by
  obtain ⟨g, gs, hgs⟩ := List.exists_cons_of_ne_nil hsegments
  have heval (q : Pattern) : (q.call property).eval p row = .ok (.ofTruth (q.truthOn w)) :=
    q.eval_call hw hconf
  have htests : ∀ e ∈ (gs.map Pattern.ofSegment).map (Pattern.call property),
      ∃ b, e.eval p row = .ok (.ofTruth b) := by
    intro e he
    obtain ⟨q, -, rfl⟩ := List.mem_map.1 he
    exact ⟨_, heval q⟩
  have hor : BinaryOp.or.decisive? = some true := rfl
  obtain ⟨t, ht, hiff⟩ := exists_eval_foldl hor (heval (.ofSegment g)) htests
  rw [textTests, hgs]
  refine (Lambda.test_of_eq_ok ht).trans ?_
  rw [Except.ok.injEq, Bool.eq_iff_iff, beq_iff_eq, hiff]
  simp [heval, Value.ofTruth_inj]

/-- A text filter on a text property answers whether one of its patterns fits the property. -/
theorem exists_compileText {path text : String} (o : Options) (id : Nat)
    (h : resolve s (.param p) path = .ok property) (hty : property.ty.isText)
    (hsegments : segments text ≠ []) :
    ∃ l, compileText s o id p.ty path text = .ok l ∧ ∀ row w, property.eval p row = .ok w →
      w.Conforms s .string → l.test row =
        .ok (((segments text).map Pattern.ofSegment).any fun q => q.truthOn w == some true) := by
  have hroot : (rootParam o id p.ty).ty = p.ty := rfl
  obtain ⟨property', hpath', halike⟩ := (Alike.param hroot).resolve.exists_eq_ok h
  have hty' : property'.ty.isText := halike.ty.symm ▸ hty
  refine ⟨⟨rootParam o id p.ty, (joined .or (textTests property' text)).getD .alwaysTrue⟩, ?_,
    fun row w hw hconf => test_textTests hsegments ((halike.eval row).trans hw) hconf⟩
  have htext := textPredicate_eq_ok hpath' hty' hsegments
  rw [rootParam] at htext
  unfold compileText
  dsimp only
  rw [htext]
  rfl

/-! ## Descriptors -/

/-- The descriptor that asks for the pattern; no operator asks for the end of a text. -/
def Pattern.descriptor? (property : String) : Pattern → Option Descriptor
  | .contains needle => some ⟨property, .contains, some needle⟩
  | .startsWith needle => some ⟨property, .startsWith, some needle⟩
  | .endsWith _ => none
  | .equals needle => some ⟨property, .equal, some needle⟩

theorem constant_eq_ok {ty : Ty} (hty : ty.isText) (raw : String) :
    constant s (some raw) ty = .ok (constantExpr (.string raw) ty) := by
  have hunder : ty.underlying = .string := eq_of_beq hty
  cases ty with
  | string => rfl
  | nullable inner =>
    cases (show inner = .string from hunder)
    have hread : Value.read s raw (.nullable .string) = .ok (.string raw) := by
      rw [Value.read]
      simp [Ty.isText, Ty.underlying, Value.read]
    unfold constant
    dsimp only
    rw [hread, ok_bind]
    rfl
  | _ => cases hunder

theorem exists_comparison (hty : property.ty.isText) (needle : String) :
    ∃ e, comparison s .equal property (some needle) = .ok e ∧ ∀ row w,
      property.eval p row = .ok w → e.eval p row = .ok (.bool (w.equal (.string needle))) := by
  have haccepts : BinaryOp.equal.accepts property.ty (constantExpr (.string needle) property.ty).ty := by
    rw [ty_constantExpr]
    exact beq_self_eq_true _
  unfold comparison
  rw [constant_eq_ok hty, ok_bind]
  refine ⟨_, mkBinary_eq_ok.2 ⟨haccepts, rfl⟩, fun row w hw => ?_⟩
  exact eval_comparison rfl hw (eval_constantExpr _ _ _ _)

theorem exists_textMatch (hty : property.ty.isText) (q : Pattern) :
    ∃ e, textMatch s q.method property (some q.needle) = .ok e ∧ ∀ row w,
      property.eval p row = .ok w → w.Conforms s .string →
        e.eval p row = .ok (.ofTruth (q.truthOn w)) := by
  have haccepts : q.method.accepts property.ty [(constantExpr (.string q.needle) property.ty).ty] := by
    rw [ty_constantExpr]
    exact q.accepts_method hty hty
  unfold textMatch
  dsimp only
  rw [constant_eq_ok hty, ok_bind, if_pos hty]
  refine ⟨_, mkCall_eq_ok.2 ⟨haccepts, rfl⟩, fun row w hw hconf => ?_⟩
  rw [eval_call_singleton hw (eval_constantExpr _ _ _ _)]
  exact q.apply_method hconf

/-- The predicate of a pattern's descriptor is true exactly if the pattern fits. -/
theorem exists_predicate_descriptor {path : String} {q : Pattern} {d : Descriptor}
    (separator : String) (hd : q.descriptor? path = some d)
    (h : resolve s (.param p) path = .ok property) (hty : property.ty.isText) :
    ∃ e, predicate s separator p d = .ok e ∧ ∀ row w, property.eval p row = .ok w →
      w.Conforms s .string → ∃ t, e.eval p row = .ok (.ofTruth t) ∧
        (t == some true) = (q.truthOn w == some true) := by
  unfold predicate
  cases q with
  | endsWith needle => cases hd
  | equals needle =>
    cases hd
    dsimp only
    rw [h, ok_bind]
    obtain ⟨e, he, heval⟩ := exists_comparison (s := s) (p := p) hty needle
    refine ⟨e, he, fun row w hw hconf => ⟨some _, heval row w hw, ?_⟩⟩
    -- A property that is null fits no pattern, and is not equal to a text.
    cases hconf with
    | null => rfl
    | string t =>
      rw [Value.equal_string]
      rfl
  | contains needle =>
    cases hd
    dsimp only
    rw [h, ok_bind]
    obtain ⟨e, he, heval⟩ := exists_textMatch (s := s) (p := p) hty (.contains needle)
    exact ⟨e, he, fun row w hw hconf => ⟨_, heval row w hw hconf, rfl⟩⟩
  | startsWith needle =>
    cases hd
    dsimp only
    rw [h, ok_bind]
    obtain ⟨e, he, heval⟩ := exists_textMatch (s := s) (p := p) hty (.startsWith needle)
    exact ⟨e, he, fun row w hw hconf => ⟨_, heval row w hw hconf, rfl⟩⟩

theorem exists_compile_descriptor {path : String} {q : Pattern} {d : Descriptor} (o : Options)
    (id : Nat) (hd : q.descriptor? path = some d) (h : resolve s (.param p) path = .ok property)
    (hty : property.ty.isText) :
    ∃ l, compile s o id p.ty [d] = .ok l ∧ ∀ row w, property.eval p row = .ok w →
      w.Conforms s .string → l.test row = .ok (q.truthOn w == some true) := by
  have hroot : (rootParam o id p.ty).ty = p.ty := rfl
  obtain ⟨property', hpath', halike⟩ := (Alike.param hroot).resolve.exists_eq_ok h
  have hty' : property'.ty.isText := halike.ty.symm ▸ hty
  obtain ⟨e, he, heval⟩ := exists_predicate_descriptor o.separator hd hpath' hty'
  have happlied : applied [d] = [d] := by cases q <;> cases hd <;> rfl
  refine ⟨⟨rootParam o id p.ty, e⟩, compile_eq_ok.2 ⟨[e], ?_, rfl⟩, fun row w hw hconf => ?_⟩
  · rw [happlied]
    exact .cons he .nil
  · obtain ⟨t, ht, htrue⟩ := heval row w ((halike.eval row).trans hw) hconf
    rw [Lambda.test_of_eq_ok ht, htrue]

/-! ## The two ways to write a filter -/

/-- **A text filter and descriptors for the same patterns agree.** Some patterns are asked of a text
property `path` of the root type `p.ty`. They can be written, each segment in quotes, with `or` between
them, or each as a descriptor. Both ways compile, whatever the options and the numbers of the root
parameters are, and all functions answer on the rows of the root type: the text filter is true
exactly where one of the descriptors alone is. -/
theorem compileText_iff_descriptors {path : String} {qs : List Pattern} {ds : List Descriptor}
    (o o' : Options) (id : Nat) (number : Descriptor → Nat)
    (hpath : resolve s (.param p) path = .ok property) (hty : property.ty.isText) (hne : qs ≠ [])
    (hqs : ∀ q ∈ qs, q.needle ≠ "" ∧ '"' ∉ q.needle.toList ∧ q.IsWritable)
    (hds : List.Forall₂ (fun q d => q.descriptor? path = some d) qs ds) :
    ∃ l, compileText s o id p.ty path
        (Text.joined " or " (qs.map fun q => inQuotes q.segment)) = .ok l ∧
      (∀ d ∈ ds, ∃ l', compile s o' (number d) p.ty [d] = .ok l' ∧
        ∀ row, row.Conforms s p.ty → ∃ b, l'.test row = .ok b) ∧
      ∀ row, row.Conforms s p.ty → ∃ b, l.test row = .ok b ∧
        (b = true ↔ ∃ d ∈ ds, ∃ l', compile s o' (number d) p.ty [d] = .ok l' ∧
          l'.test row = .ok true) := by
  have hpatterns := patterns_joined_quoted hqs
  have hsegments : segments (Text.joined " or " (qs.map fun q => inQuotes q.segment)) ≠ [] := by
    rwa [← hpatterns, Ne, List.map_eq_nil_iff] at hne
  have hvalue (row : Value) (hrow : row.Conforms s p.ty) :
      ∃ w, property.eval p row = .ok w ∧ w.Conforms s .string := by
    obtain ⟨w, hw, hconf⟩ := exists_eval_resolve hpath hrow
    exact ⟨w, hw, hconf.of_underlying_eq (eq_of_beq hty)⟩
  have halone {q : Pattern} {d : Descriptor} (hd : q.descriptor? path = some d) :=
    exists_compile_descriptor o' (number d) hd hpath hty
  obtain ⟨l, hl, htest⟩ := exists_compileText o id hpath hty hsegments
  rw [hpatterns] at htest
  refine ⟨l, hl, fun d hd => ?_, fun row hrow => ?_⟩
  · obtain ⟨q, hq⟩ := exists_of_forall₂ hds.flip hd
    obtain ⟨l', hl', htest'⟩ := halone hq
    refine ⟨l', hl', fun row hrow => ?_⟩
    obtain ⟨w, hw, hconf⟩ := hvalue row hrow
    exact ⟨_, htest' row w hw hconf⟩
  · obtain ⟨w, hw, hconf⟩ := hvalue row hrow
    refine ⟨_, htest row w hw hconf, ?_⟩
    rw [List.any_eq_true]
    constructor
    · rintro ⟨q, hq, hfits⟩
      obtain ⟨d, hd, hqd⟩ := exists_mem_of_forall₂ hds hq
      obtain ⟨l', hl', htest'⟩ := halone hqd
      exact ⟨d, hd, l', hl', by rw [htest' row w hw hconf, hfits]⟩
    · rintro ⟨d, hd, l', hl', htrue⟩
      obtain ⟨q, hq, hqd⟩ := exists_mem_of_forall₂ hds.flip hd
      obtain ⟨l'', hl'', htest'⟩ := halone hqd
      cases hl'.symm.trans hl''
      exact ⟨q, hq, Except.ok.inj ((htest' row w hw hconf).symm.trans htrue)⟩

/-! ## A filter on names -/

def contacts : Schema := ⟨[⟨"Contact", [⟨"Name", .nullable .string⟩]⟩], []⟩

def contact : Param := ⟨1, "x", .record "Contact"⟩

/-- The second needle ends with a wildcard of its own, and holds the letters of a separator. -/
def namePatterns : List Pattern := [.equals "Nora", .startsWith "or %"]

def nameDescriptors : List Descriptor :=
  [⟨"Name", .equal, some "Nora"⟩, ⟨"Name", .startsWith, some "or %"⟩]

def discount : Value := .record [("Name", .string "or % off")]

/-- The text is the one of `namePatterns`, and the second descriptor is true. -/
theorem compileText_discount :
    List.Forall₂ (fun q d => Pattern.descriptor? "Name" q = some d) namePatterns nameDescriptors ∧
      (∀ q ∈ namePatterns, q.needle ≠ "" ∧ '"' ∉ q.needle.toList ∧ q.IsWritable) ∧
      ∃ l, compileText contacts {} 1 (.record "Contact") "Name" "\"Nora\" or \"or %%\"" = .ok l ∧
        l.test discount = .ok true := by
  have hpath : resolve contacts (.param contact) "Name" =
      .ok (.field (.param contact) "Name" (.nullable .string)) := rfl
  have hdescriptors : List.Forall₂ (fun q d => Pattern.descriptor? "Name" q = some d) namePatterns
      nameDescriptors := .cons rfl (.cons rfl .nil)
  have hpatterns : ∀ q ∈ namePatterns, q.needle ≠ "" ∧ '"' ∉ q.needle.toList ∧ q.IsWritable := by
    decide
  have hrow : discount.Conforms contacts (.record "Contact") := by
    refine Value.conforms_record rfl fun f hf => ?_
    rw [List.mem_singleton.1 hf]
    exact .nullable (.string _)
  obtain ⟨l, hl, -, hrows⟩ := compileText_iff_descriptors {} {} 1 (fun _ => 2) hpath rfl
    (List.cons_ne_nil _ _) hpatterns hdescriptors
  obtain ⟨b, hb, hiff⟩ := hrows discount hrow
  have htrue : b = true := hiff.2 ⟨nameDescriptors[1], by decide, _, rfl, rfl⟩
  exact ⟨hdescriptors, hpatterns, l, hl, hb.trans (congrArg _ htrue)⟩

end Filter

end RecordQuery
