import Mathlib.Data.List.Nodup
import Mathlib.Data.Option.Basic
import RecordQuery.Proofs.Expr.Reading
import RecordQuery.Proofs.Filter.Conjunction
import RecordQuery.Proofs.Value.Loading
import RecordQuery.Schema.Document

/-!
# Filters on loaded rows

A list of filters that compiled has an answer on every row that was loaded for its root type, unless
one of its filters puts floats in order and one of the two is no number.

* `Schema.Unambiguous` : along a path, the declarations of each field that is read agree;
* `unambiguous_of_nodup` : they do where each record type declares a name once;
* `exists_readPath_of_resolve` : what a path that resolved reads from a loaded value;
* `Filter.Answers` : an expression is true, false or null on a row;
* `Asks.answers_or_unordered` : what a filter asks for is one of these, or floats have no order;
* `test_loaded_row` : the answer of a compiled list on a loaded row.

A record type may declare a field again. A path then reads it with the type of the first declaration,
and the loader keeps the value of the last, so the path is required to be unambiguous.
-/

namespace RecordQuery

theorem Binary64.rank_eq_none {x : Binary64} : x.rank = none ↔ x = .nan := by
  cases x with
  | nan => exact ⟨fun _ => rfl, fun _ => rfl⟩
  | infinite negative => exact ⟨fun h => (nomatch h), fun h => (nomatch h)⟩
  | finite negative units _ => exact ⟨fun h => (nomatch h), fun h => (nomatch h)⟩

theorem Binary64.compare_eq_none {x y : Binary64} : x.compare y = none ↔ x = .nan ∨ y = .nan := by
  rw [← rank_eq_none, ← rank_eq_none]
  unfold compare
  cases x.rank with
  | none => exact ⟨fun _ => .inl rfl, fun _ => rfl⟩
  | some a =>
    cases y.rank with
    | none => exact ⟨fun _ => .inr rfl, fun _ => rfl⟩
    | some b => simp

/-! ## Declarations along a path -/

namespace Schema
variable {s : Schema}

/-- In the record types along the path, all declarations of the field that is read have the type of
the first one, up to a nullable wrapper. -/
def Unambiguous (s : Schema) : Ty → List String → Prop
  | _, [] => True
  | ty, name :: names => ∀ record r f, ty.recordName? = some record → s.record? record = some r →
      r.field? name = some f →
      (∀ g ∈ r.fields, g.name = name → g.ty.equatable f.ty) ∧ s.Unambiguous f.ty names

theorem unambiguous_of_nodup (h : ∀ r ∈ s.records, (r.fields.map Field.name).Nodup) (ty : Ty)
    (names : List String) : s.Unambiguous ty names := by
  induction names generalizing ty with
  | nil => trivial
  | cons name names ih =>
    intro record r f _ hr hf
    refine ⟨fun g hg hname => ?_, ih f.ty⟩
    have hfname : f.name = name := RecordType.name_of_field? hf
    have hgf : g = f := List.inj_on_of_nodup_map (h r (List.mem_of_find?_eq_some hr)) hg
      (List.mem_of_find?_eq_some hf) (hname.trans hfname.symm)
    rw [hgf]
    exact beq_self_eq_true _

end Schema

/-! ## Paths on loaded values -/

variable {s : Schema} {p : Param}

namespace Expr

/-- The loader kept the last declaration of each field on the way, which has the type of the one that
the path was resolved with. -/
theorem exists_readNames_of_foldlM {path : String} {names : List String} {root e : Expr} {v : Value}
    (h : names.foldlM (readSegment s path) root = .ok e) (hpath : s.Unambiguous root.ty names)
    (hv : v.Conforms s.settled root.ty) :
    ∃ w, v.readNames names = .ok w ∧ w.Conforms s.settled e.ty := by
  induction names generalizing root v with
  | nil =>
    cases h
    exact ⟨v, rfl, hv⟩
  | cons name names ih =>
    rw [List.foldlM_cons, bind_eq_ok] at h
    obtain ⟨e', hstep, hrest⟩ := h
    obtain ⟨-, record, hrecord, r, hr, f, hf, rfl⟩ := readSegment_eq_ok.1 hstep
    obtain ⟨hagree, htail⟩ := hpath record r f hrecord hr hf
    have hfname : f.name = name := RecordType.name_of_field? hf
    obtain ⟨g, hlast⟩ := exists_lastNamed? (List.mem_of_find?_eq_some hf)
    obtain ⟨hg, hgname⟩ := mem_of_lastNamed? hlast
    have hr' : s.settled.record? record = some r.settled := by
      rw [Schema.record?_settled, hr]
      rfl
    have hg' : g ∈ r.settled.fields := RecordType.mem_settled.2 (hgname ▸ hlast)
    have hv' : v.Conforms s.settled (.record record) :=
      hv.of_underlying_eq (Ty.underlying_of_recordName hrecord)
    obtain ⟨w, hread, hw⟩ := hv'.readField hr' hg'
    rw [hgname, hfname] at hread
    rw [Value.readNames_cons, hread, ok_bind]
    exact ih hrest htail (hw.of_equatable (hagree g hg (hgname.trans hfname)))

/-- A path that resolved is read from every loaded value, and leads to a value of its type. -/
theorem exists_readPath_of_resolve {root e : Expr} {path : String} {v : Value}
    (h : resolve s root path = .ok e) (hpath : s.Unambiguous root.ty (Text.split path "."))
    (hv : v.Conforms s.settled root.ty) :
    ∃ w, v.readPath path = .ok w ∧ w.Conforms s.settled e.ty := by
  rw [Value.readPath_of_ne (resolve_ne_empty h)]
  exact exists_readNames_of_foldlM h hpath hv

end Expr

/-! ## Answers -/

namespace Filter
open RecordQuery.Expr

variable {row a b : Value} {left right e : Expr} {es : List Expr} {op : BinaryOp}

/-- The value of the expression on the row is true, false or null. -/
def Answers (p : Param) (row : Value) (e : Expr) : Prop := ∃ t, e.eval p row = .ok (.ofTruth t)

namespace Answers

theorem equal (hleft : left.eval p row = .ok a) (hright : right.eval p row = .ok b) :
    Answers p row (.binary .equal left right) :=
  ⟨some (a.equal b), eval_comparison rfl hleft hright⟩

theorem junction {d : Bool} (hop : op.decisive? = some d) (hleft : Answers p row left)
    (hright : Answers p row right) : Answers p row (.binary op left right) := by
  obtain ⟨a, ha⟩ := hleft
  obtain ⟨b, hb⟩ := hright
  exact ⟨_, eval_junction hop ha hb⟩

theorem foldl {d : Bool} (hop : op.decisive? = some d) (he : Answers p row e)
    (hes : ∀ x ∈ es, Answers p row x) : Answers p row (es.foldl (.binary op) e) := by
  obtain ⟨a, ha⟩ := he
  obtain ⟨t, ht, -⟩ := exists_eval_foldl hop ha hes
  exact ⟨t, ht⟩

theorem joined {d : Bool} (hop : op.decisive? = some d) (hes : ∀ x ∈ es, Answers p row x)
    (b : Bool) : Answers p row ((joined op es).getD (.literal (.bool b) .bool)) := by
  cases es with
  | nil => exact ⟨some b, rfl⟩
  | cons e es =>
    exact foldl hop (hes e List.mem_cons_self) fun x hx => hes x (List.mem_cons_of_mem e hx)

theorem not (h : Answers p row e) : Answers p row (.not e) := by
  obtain ⟨t, ht⟩ := h
  refine ⟨t.map (!·), ?_⟩
  rw [eval, ht, ok_bind, Value.truth_ofTruth, ok_bind]
  rfl

theorem listContains {items : List Value} {ty : Ty} (h : e.eval p row = .ok a) :
    Answers p row (.call .listContains (.literal (.list items) ty) [e]) :=
  ⟨some (items.any (·.equal a)), eval_call_singleton (eval_literal _ ty) h⟩

theorem textCall {o : Operator} {m : Method} (hm : o.textMethod? = some m)
    (hleft : left.eval p row = .ok a) (ha : a.Conforms s .string)
    (hright : right.eval p row = .ok b) (hb : b.Conforms s .string) :
    Answers p row (.call m left [right]) := by
  have hne : m ≠ .toText := Operator.ne_toText_of_textMethod hm
  obtain ⟨v, hv, -⟩ := Method.conforms_holds ha hb hne (Operator.ne_listContains_of_textMethod hm)
  obtain ⟨t, rfl⟩ := Method.eq_ofTruth_of_apply hne hv
  exact ⟨t, (eval_call_singleton hleft hright).trans hv⟩

end Answers

/-! ## Predicates on loaded rows -/

variable {s' : Schema} {separator : String} {property : Expr} {d : Descriptor} {raw : Option String}
  {v : Value}

/-- The constant of a type belongs to it; what records are declared does not matter. -/
theorem conforms_of_constantValue {ty : Ty} {c : Value} (h : constantValue s raw ty = .ok c) :
    c.Conforms s' ty := by
  cases raw with
  | none =>
    cases h
    exact .null ty
  | some raw => exact Value.conforms_of_read h

theorem Emptiness.answers (h : Emptiness s property raw e) (hv : property.eval p row = .ok v) :
    Answers p row e := by
  cases h with
  | text => exact .junction (d := true) rfl (.equal hv (eval_literal _ _)) (.equal hv (eval_literal _ _))
  | other => exact .equal hv (eval_constantExpr p row _ _)

theorem Membership.answers {text : String} (h : Membership s separator property text e)
    (hv : property.eval p row = .ok v) : Answers p row e := by
  cases h with
  | uuid _ htests =>
    refine Answers.joined (d := true) rfl (fun test htest => ?_) false
    obtain ⟨token, u, -, rfl⟩ := exists_of_forall₂ htests.flip htest
    exact .equal (eval_literal u .uuid) hv
  | enum => exact .listContains hv
  | text => exact .listContains hv
  | other =>
    obtain ⟨t, ht, -⟩ := exists_eval_toText (s := s) hv
    exact .listContains ht

theorem Operator.decisive_of_comparison {o : Operator} (h : o.comparison? = some op) :
    op.decisive? = Option.none := by
  cases o <;> cases h <;> rfl

/-- **What a filter asks for has an answer, or it orders floats that have no order.** -/
theorem Asks.answers_or_unordered (h : Asks s separator property d e)
    (hv : property.eval p row = .ok v) (hconf : v.Conforms s' property.ty) :
    Answers p row e ∨ ∃ op c err, d.operator.comparison? = some op ∧
      constantValue s d.value property.ty = .ok c ∧ op.Unordered v c err ∧
      e.eval p row = .error err := by
  cases h with
  | @comparison op c hop hc haccepts =>
    have heval : (Expr.binary op property (constantExpr c property.ty)).eval p row =
        op.compare v c :=
      eval_comparison (Operator.decisive_of_comparison hop) hv (eval_constantExpr p row c _)
    have hyields := BinaryOp.yields_compare (Operator.decisive_of_comparison hop) haccepts hconf
      (conforms_of_constantValue hc)
    rcases Yields.iff.1 hyields with ⟨w, hw, -⟩ | ⟨err, herr, hunordered⟩
    · obtain ⟨t, rfl⟩ := BinaryOp.eq_ofTruth_of_compare hw
      exact .inl ⟨t, heval.trans hw⟩
    · exact .inr ⟨op, c, err, hop, hc, hunordered, heval.trans herr⟩
  | textCall hm hty hc =>
    have htext : property.ty.underlying = .string := eq_of_beq hty
    exact .inl (.textCall hm hv (hconf.of_underlying_eq htext) (eval_constantExpr p row _ _)
      ((conforms_of_constantValue hc).of_underlying_eq htext))
  | callOnTexts hm _ _ hc =>
    obtain ⟨t, ht, htext⟩ := exists_eval_toText (s := s) hv
    obtain ⟨u, hu, hutext⟩ := exists_eval_toText (s := s) (eval_constantExpr p row _ property.ty)
    exact .inl (.textCall hm ht htext hu hutext)
  | membership _ _ h => exact .inl (h.answers hv)
  | isEmpty _ h => exact .inl (h.answers hv)
  | isNotEmpty _ h => exact .inl (h.answers hv).not

/-! ## Lists of filters on loaded rows -/

/-- A constant that is a float was read from a text as one. -/
theorem of_constantValue_eq_float {ty : Ty} {y : Binary64}
    (h : constantValue s raw ty = .ok (.float y)) :
    ∃ text, raw = some text ∧ Value.read s text .float = .ok (.float y) := by
  cases raw with
  | none => cases h
  | some text =>
    have hread : Value.read s text ty = .ok (.float y) := h
    refine ⟨text, rfl, ?_⟩
    induction ty with
    | float => exact hread
    | nullable inner ih =>
      rw [Value.read] at hread
      split at hread
      · cases hread
      · exact ih hread hread
    | _ =>
      have hconf : (Value.float y).Conforms s _ := Value.conforms_of_read hread
      cases hconf

variable {o : Options} {id : Nat} {ds : List Descriptor} {l : Lambda} {j : Json}

/-- **A compiled list answers on every row that was loaded for its root type**, in any catalog, or
else one of its filters is an order between the float at the end of its path and its float constant,
one of which is no number, and that filter's refusal to order the two is the answer. The paths of the
filters that have an operator are required to be unambiguous. -/
theorem test_loaded_row {root : Ty} (hcompile : compile s o id root ds = .ok l)
    (hpaths : ∀ d ∈ applied ds, s.Unambiguous root (Text.split d.property "."))
    (hrow : Value.ofJson s root j = .ok row) :
    (∃ b, l.test row = .ok b) ∨
      ∃ d ∈ applied ds, ∃ op text x y, d.operator.comparison? = some op ∧ op.IsOrdering ∧
        row.readPath d.property = .ok (.float x) ∧ d.value = some text ∧
        Value.read s text .float = .ok (.float y) ∧ (x = .nan ∨ y = .nan) ∧
        l.test row =
          .error (.evaluation (.unordered (Value.float x).text (Value.float y).text)) := by
  cases htest : l.test row with
  | ok b => exact .inl ⟨b, rfl⟩
  | error err =>
    obtain ⟨hscan, htruths⟩ := test_eq_scan hcompile row
    rw [htest] at hscan
    obtain ⟨d, hd, hvalue⟩ := List.mem_map.1 (mem_of_scan_eq_error htruths hscan.symm)
    obtain ⟨e, he⟩ := exists_compile_eq_ok_iff.1 ⟨l, hcompile⟩ d hd
    obtain ⟨property, hproperty, hasks⟩ := of_predicate_eq_ok he
    obtain ⟨v, hread, hconf⟩ :=
      exists_readPath_of_resolve hproperty (hpaths d hd) (Value.conforms_of_ofJson hrow)
    have hv : property.eval (rootParam o id root) row = .ok v := by
      rw [eval_resolve_param hproperty, hread]
    have herr : e.eval (rootParam o id root) row = .error err := by
      rwa [valueOn, he, ok_bind] at hvalue
    rcases hasks.answers_or_unordered hv hconf with ⟨t, ht⟩ | ⟨op, c, err', hop, hc, hun, herr'⟩
    · rw [herr] at ht
      cases ht
    · obtain ⟨hordering, x, y, rfl, rfl, hxy, rfl⟩ := hun
      cases herr.symm.trans herr'
      obtain ⟨text, htext, hy⟩ := of_constantValue_eq_float hc
      exact .inr ⟨d, hd, op, text, x, y, hop, hordering, hread, htext, hy,
        Binary64.compare_eq_none.1 hxy, rfl⟩

/-! ## Rows that were loaded from documents -/

def cardRow : Json := .object [("Card", .object [("Owner", .object [("Age", .number (.integer 30))])])]

/-- What the row does not give is null. -/
def cardHolder : Value :=
  .record [("Age", .null), ("Card", .record
    [("Owner", .record [("Age", .int 30), ("Card", .null)]), ("Limit", .null)])]

theorem cardLambda_cardHolder :
    (compile people {} 1 (.record "Person") cardFilters = .ok cardLambda ∧
      (∀ d ∈ applied cardFilters, people.Unambiguous (.record "Person") (Text.split d.property ".")) ∧
      Value.ofJson people (.record "Person") cardRow = .ok cardHolder) ∧
    ∃ b, cardLambda.test cardHolder = .ok b := by
  have hpaths : ∀ d ∈ applied cardFilters,
      people.Unambiguous (.record "Person") (Text.split d.property ".") := fun d _ =>
    Schema.unambiguous_of_nodup (by decide) _ _
  have hrow : Value.ofJson people (.record "Person") cardRow = .ok cardHolder := rfl
  refine ⟨⟨compile_cardFilters, hpaths, hrow⟩, ?_⟩
  rcases test_loaded_row compile_cardFilters hpaths hrow with
    h | ⟨d, hd, op, _, x, _, hop, -, hread, -⟩
  · exact h
  · rcases List.mem_cons.1 (show d ∈ [cardFilters[0], cardFilters[2]] from hd) with rfl | hd
    · have hage : cardHolder.readPath "Card.Owner.Age" = .ok (.int 30) := rfl
      cases hage.symm.trans hread
    · rw [List.mem_singleton.1 hd] at hop
      cases hop

/-- Filters that compile in the catalog of a document fail on a row that is loaded. -/
def FailsOn (text root : String) (ds : List Descriptor) (j : Json) (err : Error) : Prop :=
  ∃ s l row, Schema.read text = .ok s ∧ s.validate = .ok () ∧
    compile s {} 1 (.record root) ds = .ok l ∧ Value.ofJson s (.record root) j = .ok row ∧
    l.test row = .error err

def gradesText : String :=
  r#"{"records":[{"name":"Grade","fields":[{"name":"score","type":"float"}]}]}"#

def grades : Schema := ⟨[⟨"Grade", [⟨"score", .float⟩]⟩], []⟩

theorem read_gradesText : Schema.read gradesText = .ok grades := by cbv

def five : Binary64 := .ofDecimal false 5 0

/-- The points of a mark are declared as an integer, and again as text. -/
def marksText : String :=
  r#"{"records":[{"name":"Mark","fields":[{"name":"points","type":"int"},"# ++
    r#"{"name":"points","type":"string"}]}]}"#

def marks : Schema := ⟨[⟨"Mark", [⟨"points", .int⟩, ⟨"points", .string⟩]⟩], []⟩

theorem read_marksText : Schema.read marksText = .ok marks := by cbv

/-- A score that is no number has no order, and points are loaded as what was declared last. -/
theorem failsOn_grade_and_mark :
    FailsOn gradesText "Grade" [⟨"score", .less, some "5"⟩] (.object [("score", .string "nan")])
      (.evaluation (.unordered "NaN" (Value.float five).text)) ∧
    FailsOn marksText "Mark" [⟨"points", .less, some "10"⟩] (.object [("points", .string "5")])
      (.evaluation (.unordered "5" "10")) :=
  ⟨⟨grades, _, _, read_gradesText, rfl, rfl, rfl, rfl⟩,
    ⟨marks, _, _, read_marksText, rfl, rfl, rfl, rfl⟩⟩

end Filter

end RecordQuery
