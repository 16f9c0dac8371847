import RecordQuery.Proofs.Expr.Paths
import RecordQuery.Proofs.Filter.Settlement

/-!
# Filters that are refused

When a filter has no predicate, and which kind of error it gives instead.

* `Asks.mem_params`, `freeParams_of_predicate_eq_ok` : a predicate is over the root alone;
* `compile_eq_error` : a list gives the error of the first filter without a predicate;
* `FailsWith`, `Settles.failsWith_iff` : the kinds of errors of a filter whose path is resolved;
* `predicate_failsWith_iff` : the kinds of errors of a filter, and when it has none.

A moment beyond the calendar is no failed conversion. It ends the program.
-/

namespace RecordQuery.Filter

open RecordQuery.Expr

variable {s : Schema} {separator : String} {ty : Ty} {op : Operator} {value : Option String}
  {property e : Expr}

/-! ## Parameters of predicates -/

theorem params_constantExpr (c : Value) (ty : Ty) : (constantExpr c ty).params = [] := by
  unfold constantExpr
  split <;> rfl

theorem forall_mem_params_foldl {bop : BinaryOp} {P : Param → Prop} {es : List Expr}
    (he : ∀ q ∈ e.params, P q) (hes : ∀ x ∈ es, ∀ q ∈ x.params, P q) :
    ∀ q ∈ (es.foldl (.binary bop) e).params, P q := by
  induction es generalizing e with
  | nil => exact he
  | cons x xs ih =>
    obtain ⟨hx, hxs⟩ := List.forall_mem_cons.1 hes
    refine ih ?_ hxs
    rw [params, List.forall_mem_append]
    exact ⟨he, hx⟩

theorem Emptiness.mem_params (h : Emptiness s property value e) :
    ∀ q ∈ e.params, q ∈ property.params := by
  cases h with
  | text => simp [params, null]
  | other => simp [params, params_constantExpr]

theorem Membership.mem_params {raw : String} (h : Membership s separator property raw e) :
    ∀ q ∈ e.params, q ∈ property.params := by
  cases h with
  | @uuid tests _ htests =>
    have hparams : ∀ test ∈ tests, ∀ q ∈ test.params, q ∈ property.params := fun test htest => by
      obtain ⟨token, u, -, rfl⟩ := exists_of_forall₂ htests.flip htest
      simp [params]
    cases tests with
    | nil =>
      intro q hq
      cases hq
    | cons test tests =>
      obtain ⟨htest, hrest⟩ := List.forall_mem_cons.1 hparams
      exact forall_mem_params_foldl htest hrest
  | enum | text | other => simp [params, paramsAll]

theorem Asks.mem_params {d : Descriptor} (h : Asks s separator property d e) :
    ∀ q ∈ e.params, q ∈ property.params := by
  cases h with
  | comparison => simp [params, params_constantExpr]
  | textCall | callOnTexts => simp [params, paramsAll, params_constantExpr]
  | membership _ _ h => exact h.mem_params
  | isEmpty _ h => exact h.mem_params
  | isNotEmpty _ h => exact h.mem_params

theorem freeParams_of_predicate_eq_ok {root : Param} {d : Descriptor}
    (h : predicate s separator root d = .ok e) : e.freeParams = [] ∨ e.freeParams = [root] := by
  obtain ⟨property, hproperty, hasks⟩ := of_predicate_eq_ok h
  refine freeParams_of_eq fun q hq => ?_
  have hmem := hasks.mem_params q hq
  rw [params_resolve hproperty] at hmem
  exact List.mem_singleton.1 hmem

/-! ## Errors of filters -/

/-- **A list of filters gives the error of the first one that is applied and has no predicate.** -/
theorem compile_eq_error {o : Options} {id : Nat} {root : Ty} {ds : List Descriptor} {err : Error} :
    compile s o id root ds = .error err ↔ ∃ before d rest, applied ds = before ++ d :: rest ∧
      (∀ d' ∈ before, ∃ e, predicate s o.separator (rootParam o id root) d' = .ok e) ∧
      predicate s o.separator (rootParam o id root) d = .error err := by
  rw [← mapM_eq_error]
  have hcompile : compile s o id root ds =
      ((applied ds).mapM (predicate s o.separator (rootParam o id root)) >>= fun es =>
        fold .and es >>= fun body => .ok ⟨rootParam o id root, body.getD .alwaysTrue⟩) := rfl
  rw [hcompile]
  cases hes : (applied ds).mapM (predicate s o.separator (rootParam o id root)) with
  | error err' => rw [error_bind, Except.error.injEq, Except.error.injEq]
  | ok es =>
    have htests : ∀ e ∈ es, e.ty = .bool := fun e he => by
      obtain ⟨d, hd⟩ := exists_of_forall₂ (mapM_eq_ok.1 hes).flip he
      exact (isTest_of_predicate_eq_ok hd).ty
    rw [ok_bind, fold_eq_ok (d := false) rfl htests]
    exact iff_of_false nofun nofun

def FailsWith (x : Except Error Expr) (code : String) : Prop := ∃ err, x = .error err ∧ err.code = code

theorem failsWith_ok {code : String} : ¬FailsWith (.ok e) code := nofun

theorem failsWith_error {err : Error} {code : String} :
    FailsWith (.error err) code ↔ err.code = code := by
  simp [FailsWith]

theorem Refuses.code {err : Error} (h : Refuses s separator ty op value err)
    (hty : ty.IsDeclared s) : err.code = "ValueConversion" := by
  cases h with
  | constant _ _ hcode => exact hcode
  | missingText | missingList => rfl
  | identifier _ _ herr =>
    have huuid : (Ty.uuid).IsDeclared s := ⟨trivial, rfl⟩
    rcases (Value.read_yields huuid).of_eq_error herr with hcode | ⟨-, hmoment, -⟩
    · exact hcode
    · cases hmoment
  | enumConstant henum _ herr =>
    exact (Constant.read_yields (hty.exists_enumeration henum)).of_eq_error herr

theorem Settles.code_mem {err : Error} (h : Settles s separator ty op value (.error err))
    (hty : ty.IsDeclared s) : err.code ∈ ["ValueConversion", "Calendar", "TypeMismatch"] := by
  cases h with
  | refused hrefuses =>
    rw [hrefuses.code hty]
    exact List.mem_cons_self
  | aborted => decide
  | mismatch => simp [Error.code]

/-- The kinds of errors tell apart how a predicate is settled. -/
theorem Settles.failsWith_iff {x : Except Error Expr} (h : Settles s separator ty op value x)
    (hty : ty.IsDeclared s) :
    (FailsWith x "ValueConversion" ↔ ∃ err, Refuses s separator ty op value err) ∧
    (FailsWith x "Calendar" ↔ Aborts ty op value) ∧
    (FailsWith x "TypeMismatch" ↔ (∀ err, ¬Refuses s separator ty op value err) ∧
      ¬Aborts ty op value ∧ op.Orders = true ∧ ty.isOrderable = false) ∧
    ((∃ e, x = .ok e) ↔ (∀ err, ¬Refuses s separator ty op value err) ∧
      ¬Aborts ty op value ∧ (op.Orders = true → ty.isOrderable = true)) := by
  -- The ways to end exclude one another, so in each case one side of one equivalence is true.
  cases h with
  | @refused err hrefuses =>
    have hcode := hrefuses.code hty
    have hnot := hrefuses.not_aborts hty
    simp only [failsWith_error, hcode, reduceCtorEq, exists_false]
    exact ⟨iff_of_true trivial ⟨err, hrefuses⟩, iff_of_false (by decide) hnot,
      iff_of_false (by decide) fun h => h.1 err hrefuses, iff_of_false id fun h => h.1 err hrefuses⟩
  | aborted haborts =>
    have hnot (err : Error) : ¬Refuses s separator ty op value err := fun h => h.not_aborts hty haborts
    simp only [failsWith_error, Error.code, reduceCtorEq, exists_false]
    exact ⟨iff_of_false (by decide) fun ⟨err, h⟩ => hnot err h, iff_of_true trivial haborts,
      iff_of_false (by decide) fun h => h.2.1 haborts, iff_of_false id fun h => h.2.1 haborts⟩
  | mismatch hconverts horders hunordered =>
    have hnot := hconverts.not_refuses
    have hnot' := hconverts.not_aborts hty
    simp only [failsWith_error, Error.code, reduceCtorEq, exists_false]
    refine ⟨iff_of_false (by decide) fun ⟨err, h⟩ => hnot err h, iff_of_false (by decide) hnot',
      iff_of_true trivial ⟨hnot, hnot', horders, hunordered⟩, iff_of_false id fun h => ?_⟩
    cases hunordered.symm.trans (h.2.2 horders)
  | made hconverts hordered =>
    have hnot := hconverts.not_refuses
    have hnot' := hconverts.not_aborts hty
    refine ⟨iff_of_false failsWith_ok fun ⟨err, h⟩ => hnot err h, iff_of_false failsWith_ok hnot',
      iff_of_false failsWith_ok fun h => ?_, iff_of_true ⟨_, rfl⟩ ⟨hnot, hnot', hordered⟩⟩
    cases h.2.2.2.symm.trans (hordered h.2.2.1)

theorem predicate_of_error {root : Param} {d : Descriptor} {err : Error}
    (hpath : resolve s (.param root) d.property = .error err) :
    predicate s separator root d = .error err := by
  unfold predicate
  rw [hpath]
  rfl

/-- **The errors of filters.** In a valid catalog without nested nullable types, over a declared record
type, a filter that is applied gives the error of its path if the path does not resolve. Otherwise it
fails to convert exactly if a conversion that it needs fails, and it ends the program exactly if one of
them meets a moment beyond the calendar. If neither happens, it gives a mismatch of types exactly if its
operator needs an order that the property lacks, and else a test over the root alone. A list of filters
gives the error of the first one that is applied and fails. -/
theorem predicate_failsWith_iff (separator : String) {root : Param} {name : String} (d : Descriptor)
    (hs : s.validate = .ok ()) (hflat : ∀ r ∈ s.records, ∀ f ∈ r.fields, f.ty.Flat)
    (hroot : root.ty.recordName? = some name) (hname : s.record? name ≠ none)
    (hop : d.operator ≠ .none) :
    (FailsWith (predicate s separator root d) "PathResolution" ↔
      ∀ property, resolve s (.param root) d.property ≠ .ok property) ∧
    (∀ property, resolve s (.param root) d.property = .ok property →
      (FailsWith (predicate s separator root d) "ValueConversion" ↔
        ∃ err, Refuses s separator property.ty d.operator d.value err) ∧
      (FailsWith (predicate s separator root d) "Calendar" ↔
        Aborts property.ty d.operator d.value) ∧
      (FailsWith (predicate s separator root d) "TypeMismatch" ↔
        (∀ err, ¬Refuses s separator property.ty d.operator d.value err) ∧
        ¬Aborts property.ty d.operator d.value ∧
        d.operator.Orders = true ∧ property.ty.isOrderable = false) ∧
      ((∃ e, predicate s separator root d = .ok e) ↔
        (∀ err, ¬Refuses s separator property.ty d.operator d.value err) ∧
        ¬Aborts property.ty d.operator d.value ∧
        (d.operator.Orders = true → property.ty.isOrderable = true))) ∧
    (∀ err, predicate s separator root d = .error err →
      err.code ∈ ["PathResolution", "ValueConversion", "Calendar", "TypeMismatch"]) ∧
    (∀ e, predicate s separator root d = .ok e →
      e.ty = .bool ∧ (e.freeParams = [] ∨ e.freeParams = [root])) ∧
    ∀ (o : Options) (id : Nat) (ds : List Descriptor) (err : Error),
      compile s o id root.ty ds = .error err ↔ ∃ before d rest, applied ds = before ++ d :: rest ∧
        (∀ d' ∈ before, ∃ e, predicate s o.separator (rootParam o id root.ty) d' = .ok e) ∧
        predicate s o.separator (rootParam o id root.ty) d = .error err := by
  have hresolve : Yields (fun e : Expr => e.ty.IsDeclared s)
      (fun err => ∃ segment onType, err = .unresolved d.property segment onType)
      (resolve s (.param root) d.property) :=
    resolve_yields (fun r hr f hf => Schema.isDeclared_field hs hflat hr hf)
      (fun ty name hty hname => hty.exists_record hname) (.of_recordName hroot hname)
  have hmade (e : Expr) (he : predicate s separator root d = .ok e) :
      e.ty = .bool ∧ (e.freeParams = [] ∨ e.freeParams = [root]) :=
    ⟨(isTest_of_predicate_eq_ok he).ty, freeParams_of_predicate_eq_ok he⟩
  cases hpath : resolve s (.param root) d.property with
  | error err =>
    obtain ⟨segment, onType, rfl⟩ := hresolve.of_eq_error hpath
    refine ⟨iff_of_true ⟨_, predicate_of_error hpath, rfl⟩ nofun, nofun, fun err herr => ?_, hmade,
      fun _ _ _ _ => compile_eq_error⟩
    cases herr.symm.trans (predicate_of_error hpath)
    exact List.mem_cons_self
  | ok property =>
    have hty : property.ty.IsDeclared s := hresolve.of_eq_ok hpath
    have hsettles : Settles s separator property.ty d.operator d.value (predicate s separator root d) :=
      settles_predicate hpath hty hop
    have hcode (err : Error) (herr : predicate s separator root d = .error err) :
        err.code ∈ ["ValueConversion", "Calendar", "TypeMismatch"] := (herr ▸ hsettles).code_mem hty
    refine ⟨iff_of_false ?_ fun h => h property rfl, ?_, ?_, hmade, fun _ _ _ _ => compile_eq_error⟩
    · rintro ⟨err, herr, hpathError⟩
      have hmem := hcode err herr
      rw [hpathError] at hmem
      exact absurd hmem (by decide)
    · rintro property' ⟨⟩
      exact hsettles.failsWith_iff hty
    · exact fun err herr => List.mem_cons_of_mem _ (hcode err herr)

/-! ## Meetings -/

def meetings : Schema := ⟨[⟨"Meeting", [⟨"Start", .dateTime⟩, ⟨"Room", .nullable .string⟩]⟩], []⟩

def meeting : Param := ⟨1, "x", .record "Meeting"⟩

/-- A moment that is read as the first minute of the year 10000 in UTC. -/
def afterCalendar : String := "9999-12-31T23:59:59-00:01"

theorem validate_meetings : meetings.validate = .ok () := rfl

theorem flat_meetings : ∀ r ∈ meetings.records, ∀ f ∈ r.fields, f.ty.Flat := by
  simp [meetings, Ty.Flat, Ty.isNullable]

theorem resolve_meeting_start : resolve meetings (.param meeting) "Start" =
    .ok (.field (.param meeting) "Start" .dateTime) := rfl

/-- The start of a meeting is a moment, so a word for it does not convert. -/
theorem predicate_failsWith_soon :
    (meetings.validate = .ok () ∧ (∀ r ∈ meetings.records, ∀ f ∈ r.fields, f.ty.Flat) ∧
      meeting.ty.recordName? = some "Meeting" ∧ meetings.record? "Meeting" ≠ none) ∧
    FailsWith (predicate meetings "," meeting ⟨"Start", .less, some "soon"⟩) "ValueConversion" := by
  have hroot : meeting.ty.recordName? = some "Meeting" := rfl
  have hname : meetings.record? "Meeting" ≠ none := by decide
  refine ⟨⟨validate_meetings, flat_meetings, hroot, hname⟩, ?_⟩
  obtain ⟨-, hproperty, -⟩ := predicate_failsWith_iff "," ⟨"Start", .less, some "soon"⟩
    validate_meetings flat_meetings hroot hname (by decide)
  obtain ⟨hconversion, -⟩ := hproperty _ resolve_meeting_start
  exact hconversion.2 ⟨_, .constant (.comparison rfl) rfl rfl⟩

/-- A moment beyond the calendar is not refused. It ends the program. -/
theorem predicate_afterCalendar :
    (meetings.validate = .ok () ∧ (∀ r ∈ meetings.records, ∀ f ∈ r.fields, f.ty.Flat) ∧
      meeting.ty.recordName? = some "Meeting" ∧ meetings.record? "Meeting" ≠ none) ∧
    resolve meetings (.param meeting) "Start" = .ok (.field (.param meeting) "Start" .dateTime) ∧
    predicate meetings "," meeting ⟨"Start", .equal, some afterCalendar⟩ = .error .beyondCalendar :=
  ⟨⟨validate_meetings, flat_meetings, rfl, by decide⟩, resolve_meeting_start, rfl⟩

end RecordQuery.Filter
