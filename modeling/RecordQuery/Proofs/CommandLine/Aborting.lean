import RecordQuery.Proofs.CommandLine.Completion
import RecordQuery.Proofs.Filter.Aborting
import RecordQuery.Proofs.Schema.Reordering

/-!
# Runs that abort

A run of the command line aborts only for a text past the calendar, in the data file or in the file of
filters. The other steps either go well or fail with an error that is reported: catalogs and projections
read no moments, and rows are not read again when an expression is evaluated.

* `Expr.eval_abortsOnlyIf`, `Query.runRows_abortsOnlyIf` : evaluation never aborts;
* `Schema.read_abortsOnlyIf`, `Projection.compile_abortsOnlyIf` : nor do catalogs and projections;
* `CommandLine.exists_hasPastText_of_run` : what a run that aborts was given;
* `read_total` : reading, filters, documents and runs together.
-/

namespace RecordQuery

variable {P : Prop}

/-! ## Evaluation -/

theorem Value.readField_abortsOnlyIf (name : String) (v : Value) : AbortsOnlyIf P (v.readField name) := by
  unfold readField
  split
  · exact .ok Value.null
  · exact .ok _
  · rename_i shape values
    cases slot? shape values name with
    | some v => exact .ok v
    | none => exact .of_ne (by simp)
  · exact .of_ne (by simp)

theorem Value.truth_abortsOnlyIf (v : Value) : AbortsOnlyIf P v.truth := by
  unfold truth
  split
  · exact .ok _
  · exact .ok _
  · exact .of_ne (by simp)

theorem BinaryOp.compare_abortsOnlyIf (op : BinaryOp) (v w : Value) : AbortsOnlyIf P (op.compare v w) := by
  unfold compare
  split
  · exact .ok _
  · exact .ok _
  · split
    · exact .ok _
    · split
      · exact .ok _
      · exact .of_ne (by simp)

theorem Method.apply_abortsOnlyIf (m : Method) (v : Value) (args : List Value) :
    AbortsOnlyIf P (m.apply v args) := by
  unfold apply
  repeat' split
  all_goals first | exact .ok _ | exact .of_ne (by simp)

/-- **The value of an expression is found without reading a text.** -/
theorem Expr.eval_abortsOnlyIf (p : Param) (arg : Value) (e : Expr) : AbortsOnlyIf P (e.eval p arg) := by
  induction e using Expr.induction with
  | param q =>
    rw [eval]
    split
    · exact .ok arg
    · exact .of_ne (by simp)
  | field target name ty ih =>
    rw [eval]
    exact ih.bind fun v _ => v.readField_abortsOnlyIf name
  | literal value ty =>
    rw [eval]
    exact .ok value
  | binary op left right ihl ihr =>
    rw [eval]
    refine ihl.bind fun l _ => ?_
    split
    · refine l.truth_abortsOnlyIf.bind fun a _ => ?_
      split
      · exact .ok _
      · refine ihr.bind fun r _ => ?_
        exact r.truth_abortsOnlyIf.bind fun b _ => .ok _
    · exact ihr.bind fun r _ => op.compare_abortsOnlyIf l r
  | not operand ih =>
    rw [eval]
    exact ih.bind fun v _ => v.truth_abortsOnlyIf.bind fun b _ => .ok _
  | call m target args ih ihs =>
    rw [eval, evalAll_eq_mapM]
    exact ih.bind fun v _ => (AbortsOnlyIf.mapM ihs).bind fun vs _ => m.apply_abortsOnlyIf v vs
  | conditional test ifTrue ifFalse ty ih iht ihf =>
    rw [eval]
    refine ih.bind fun v _ => v.truth_abortsOnlyIf.bind fun b _ => ?_
    split
    · exact iht
    · exact ihf
  | convert operand ty ih =>
    rw [eval]
    refine ih.bind fun v _ => ?_
    split
    · exact .of_ne (by simp)
    · exact .ok v
  | construct shape args ihs =>
    rw [eval, evalAll_eq_mapM]
    exact (AbortsOnlyIf.mapM ihs).bind fun vs _ => .ite (by simp)

theorem Lambda.test_abortsOnlyIf (l : Lambda) (arg : Value) : AbortsOnlyIf P (l.test arg) := by
  refine (Expr.eval_abortsOnlyIf l.param arg l.body).bind fun v _ => ?_
  split
  · exact .ok _
  · exact .ok _
  · exact .of_ne (by simp)

theorem Query.runStages_abortsOnlyIf (row : Value) (stages : List Stage) :
    AbortsOnlyIf P (runStages row stages) := by
  induction stages generalizing row with
  | nil => exact .ok _
  | cons stage stages ih =>
    cases stage with
    | filter l =>
      refine (l.test_abortsOnlyIf row).bind fun b _ => ?_
      split
      · exact ih row
      · exact .ok _
    | select l => exact (Expr.eval_abortsOnlyIf l.param row l.body).bind fun v _ => ih v

theorem Query.runRows_abortsOnlyIf (stages : List Stage) (rows : List Value) :
    AbortsOnlyIf P (runRows stages rows) := by
  induction rows with
  | nil => exact .ok _
  | cons row rows ih =>
    refine (runStages_abortsOnlyIf row stages).bind fun v _ => ?_
    split
    · exact ih.bind fun vs _ => .ok _
    · exact ih

/-! ## Catalogs -/

namespace Schema

theorem checkTy_abortsOnlyIf (s : Schema) (ty : Ty) : AbortsOnlyIf P (s.checkTy ty) := by
  induction ty with
  | record name => exact (s.record_abortsOnlyIf name).map _
  | enum name =>
    refine AbortsOnlyIf.map ?_ _
    unfold enumeration
    cases s.enumeration? name with
    | some e => exact .ok e
    | none => exact .of_ne (by simp)
  | list inner ih => exact ih
  | nullable inner ih => exact ih
  | _ => exact .ok ()

theorem validate_abortsOnlyIf (s : Schema) : AbortsOnlyIf P s.validate :=
  AbortsOnlyIf.forM fun _ _ => .forM fun f _ => s.checkTy_abortsOnlyIf f.ty

theorem read_abortsOnlyIf (text : String) : AbortsOnlyIf P (read text) := by
  unfold read
  split
  · exact .of_codes fun e h => by simp [code_of_ofDocument h]
  · exact .of_ne (by simp)

end Schema

/-! ## Projections -/

namespace Projection

theorem draft_abortsOnlyIf (s : Schema) (root : Param) (ms : List Mapping) :
    AbortsOnlyIf P (draft s root ms) := by
  refine .mapM fun m _ => .bind ?_ fun e _ => .ok _
  cases m with
  | direct name path => exact Expr.resolve_abortsOnlyIf s _ path
  | computed name l closed => exact .ite (by simp)

theorem check_abortsOnlyIf (seen : List String) (fields : List Field) :
    AbortsOnlyIf P (Signature.check seen fields) := by
  induction fields generalizing seen with
  | nil => exact .ok ()
  | cons f fields ih =>
    unfold Signature.check
    split
    · exact .of_ne (by simp)
    split
    · exact .of_ne (by simp)
    split
    · exact .of_ne (by simp)
    · exact ih _

theorem getOrCreate_abortsOnlyIf (r : Shape.Registry) (cache : String) (fields : List Field) :
    AbortsOnlyIf P (r.getOrCreate cache fields) := by
  refine .bind ?_ fun x _ => .ok _
  refine .bind ((check_abortsOnlyIf [] fields).bind fun _ _ => .ok _) fun key _ => ?_
  split <;> exact .ok _

theorem checkArgs_abortsOnlyIf (fields : List Field) (args : List Expr) :
    AbortsOnlyIf P (Expr.checkArgs fields args) := by
  fun_induction Expr.checkArgs fields args with
  | case1 f fields e es h ih => exact ih
  | case2 => exact .of_ne (by simp)
  | case3 => exact .ok ()

theorem assemble_abortsOnlyIf (root : Param) (shape : Shape) (exprs : List (String × Expr)) :
    AbortsOnlyIf P (assemble root shape exprs) := by
  refine .bind (.mapM fun f _ => ?_) fun args _ => .bind ?_ fun e _ => .ok _
  · unfold argument
    cases exprs.lookup f.name with
    | some e => exact .ok e
    | none => exact .of_ne (by simp)
  · unfold Expr.mkConstruct
    split
    · exact .of_ne (by simp)
    · exact (checkArgs_abortsOnlyIf _ _).bind fun _ _ => .ok _

theorem compile_abortsOnlyIf (s : Schema) (ms : List Mapping) (root : Param) (cache : String)
    (r : Shape.Registry) : AbortsOnlyIf P (compile s ms root cache r).1 := by
  unfold compile
  split
  · rename_i e hdraft
    intro h
    cases h
    exact draft_abortsOnlyIf s root ms hdraft
  · split
    · rename_i e hshape
      intro h
      cases h
      exact getOrCreate_abortsOnlyIf r cache _ hshape
    · exact assemble_abortsOnlyIf root _ _

end Projection

/-! ## Runs -/

namespace Filter

theorem readList_abortsOnlyIf (text : String) : AbortsOnlyIf P (readList text) := by
  unfold readList
  split
  · refine .mapM fun draft _ => ?_
    obtain ⟨property, operator, value⟩ := draft
    cases operator with
    | none => exact .ok _
    | some name =>
      refine AbortsOnlyIf.bind ?_ fun op _ => .ok _
      unfold Operator.read
      cases Operator.read? name with
      | some op => exact .ok op
      | none => exact .of_ne (by simp)
  · exact .of_ne (by simp)

end Filter

namespace CommandLine
variable {env : Environment} {files : Files} {i : Invocation}

/-- A text in the data file, or the value of a filter in the file of filters, is past the calendar. -/
inductive HasPastText (files : Files) (i : Invocation) : Prop
  | data {items : List Json} {raw : String} (hitems : HasEntities files i.input items)
      (hraw : (Json.array items).HasText raw) (h : PastCalendar raw)
  | filter {path text : String} {ds : List Filter.Descriptor} {d : Filter.Descriptor}
      (hcommand : i.command = .filter path) (hfile : files path = .ok text)
      (hread : Filter.readList text = .ok ds) (hd : d ∈ ds) (h : Filter.HasPast d.value)

theorem readOptions_ne_failed {path : String} {contents : Except FileFault String} {e : Error} :
    readOptions path contents ≠ .error (.failed e) := by
  intro h
  rcases bind_eq_error.1 h with h | ⟨text, -, h⟩
  · cases contents <;> cases h
  · cases hread : Options.read text <;> rw [hread] at h <;> cases h

theorem loadOptions_ne_failed {config : Option String} {e : Error} :
    loadOptions env files config ≠ .error (.failed e) := by
  unfold loadOptions
  split
  · exact readOptions_ne_failed
  · nofun
  · nofun
  · exact readOptions_ne_failed

theorem hasPastText_of_loadFails (h : LoadFails files i.input (.failed .beyondCalendar)) :
    HasPastText files i := by
  cases h with
  | schema hfile h => exact Schema.read_abortsOnlyIf _ h
  | validation hs h => exact Schema.validate_abortsOnlyIf _ h
  | root hs hvalid h =>
    exact absurd (Schema.code_of_readChars h) (by decide)
  | row hroot hitems h =>
    obtain ⟨before, j, rest, rfl, -, hj⟩ := h
    obtain ⟨raw, hraw, hpast⟩ := Value.ofJson_abortsOnlyIf _ _ j hj
    exact .data hitems (.item (by simp) hraw) hpast

theorem hasPastText_of_compileFails {o : Options} {r : Rows}
    (h : CompileFails files o r i.command (.failed .beyondCalendar)) : HasPastText files i := by
  generalize hcommand : i.command = command at h
  cases h with
  | descriptors hfile h => exact Filter.readList_abortsOnlyIf _ h
  | filter hfile hread h =>
    obtain ⟨d, hd, hpast⟩ := Filter.compile_abortsOnlyIf _ _ _ _ _ h
    exact .filter hcommand hfile hread hd hpast
  | textFilter h => exact Filter.compileText_abortsOnlyIf _ _ _ _ _ _ h
  | mapping h =>
    obtain ⟨-, arg, -, -, -, h⟩ := h
    unfold readMapping at h
    dsimp only at h
    split at h <;> cases h
  | project hms h => exact Projection.compile_abortsOnlyIf _ _ _ _ _ h

theorem hasPastText_of_fails (h : Fails env files i (.failed .beyondCalendar)) : HasPastText files i := by
  cases h with
  | options h => exact absurd h loadOptions_ne_failed
  | input ho h => exact hasPastText_of_loadFails h
  | command ho hr h => exact hasPastText_of_compileFails h
  | row ho hr hc h =>
    exact Query.runRows_abortsOnlyIf _ _ ((runRows_stage_eq_error hc).2 h)

/-- **A run aborts only for a text past the calendar.** -/
theorem exists_hasPastText_of_run {args : List String} (h : (run env files args).code = 101) :
    ∃ i, Invocation.parse env.configVariable args = .ok i ∧ HasPastText files i := by
  unfold run at h
  cases hparse : Invocation.parse env.configVariable args with
  | error stop =>
    rw [hparse] at h
    cases stop <;> cases h
  | ok i =>
    rw [hparse] at h
    refine ⟨i, rfl, ?_⟩
    dsimp only [runInvocation] at h
    cases hanswer : answer env files i with
    | ok x =>
      rw [hanswer] at h
      cases h
    | error f =>
      rw [hanswer] at h
      by_cases hf : f = .failed .beyondCalendar
      · subst hf
        exact hasPastText_of_fails (answer_eq_error_iff.1 hanswer)
      · have hcode : f.code = 1 := f.code_eq_one hf
        cases hcode.symm.trans h

end CommandLine

/-- **Reading a text ends with a value or an error that is reported, unless it is past the calendar.** A
text aborts the reading exactly if the type asks for a moment and the text is past the calendar; any other
error says that the text does not convert, or that the enumeration is not declared. A text in the form of
RFC 3339 is read as the same instant in UTC unless it is past the calendar, or refused for a leap second.
Only for a text past the calendar do filters, documents and runs of the command line abort. -/
theorem read_total (s : Schema) (raw : String) (ty : Ty) :
    (Value.read s raw ty = .error .beyondCalendar ↔ ty.core = .dateTime ∧ PastCalendar raw) ∧
    (∀ e, Value.read s raw ty = .error e → e = .beyondCalendar ∨ e.code = "ValueConversion" ∨
      ∃ name, ty.core = .enum name ∧ e = .schema (.unknownEnum name)) ∧
    (∀ z, ty.core = .dateTime → Zoned.read? (Text.trimChars raw.toList) = some z →
      (∃ t, Value.read s raw ty = .ok (.dateTime t) ∧ t.instant = z.instant) ∨
        (∃ e, Value.read s raw ty = .error e ∧ e.code = "ValueConversion" ∧ z.leapSecond = true) ∨
        PastCalendar raw) ∧
    (∀ o id ds, Filter.compile s o id ty ds = .error .beyondCalendar →
      ∃ d ∈ ds, Filter.HasPast d.value) ∧
    (∀ j, Value.ofJson s ty j = .error .beyondCalendar → ∃ text, j.HasText text ∧ PastCalendar text) ∧
    ∀ env files args, (CommandLine.run env files args).code = 101 →
      ∃ i, CommandLine.Invocation.parse env.configVariable args = .ok i ∧
        CommandLine.HasPastText files i :=
  ⟨Value.read_aborts_iff, fun _ h => (Value.error_of_read h).imp_left And.right,
    fun _ => Value.read_zoned, fun o id => Filter.compile_abortsOnlyIf s o id ty,
    Value.ofJson_abortsOnlyIf s ty, fun _ _ _ => CommandLine.exists_hasPastText_of_run⟩

/-! ## Meetings -/

/-- A quarter past midnight, two hours ahead of UTC. -/
def newYear : Zoned := ⟨⟨⟨2024, 1, 1, by decide⟩, ⟨0, 15, 0, 0, by decide⟩⟩, 120, false⟩

/-- The last second of the last year, one minute behind UTC. -/
def lastSecond : String := "9999-12-31T23:59:59-00:01"

def meetings : Schema := ⟨[⟨"Meeting", [⟨"start", .dateTime⟩]⟩], []⟩

/-- The file of types, and one meeting that starts at the last second. -/
def meetingFiles : CommandLine.Files := fun path =>
  if path = "types" then
    .ok (r#"{"records": [{"name": "Meeting", "# ++
      r#""fields": [{"name": "start", "type": "datetime"}]}]}"#)
  else if path = "meetings" then .ok (r#"[{"start": ""# ++ lastSecond ++ r#""}]"#)
  else .error .missing

def meetingArgs : List String :=
  ["text-filter", "--schema=types", "--root=Meeting", "--data=meetings", "--property=start", "--text=10"]

/-- A word for a moment, a moment in the new year, and the last second in a filter, in a document and in
a run over the meetings. -/
theorem read_total_meetings :
    (∃ e, Value.read meetings "soon" .dateTime = .error e ∧
      (e = .beyondCalendar ∨ e.code = "ValueConversion" ∨
        ∃ name, Ty.dateTime.core = .enum name ∧ e = .schema (.unknownEnum name))) ∧
    ((∃ t, Value.read meetings "2024-01-01T00:15:00+02:00" .dateTime = .ok (.dateTime t) ∧
        t.instant = newYear.instant) ∨
      (∃ e, Value.read meetings "2024-01-01T00:15:00+02:00" .dateTime = .error e ∧
        e.code = "ValueConversion" ∧ newYear.leapSecond = true) ∨
      PastCalendar "2024-01-01T00:15:00+02:00") ∧
    (∃ d ∈ [⟨"start", .less, some lastSecond⟩], Filter.HasPast (Filter.Descriptor.value d)) ∧
    (∃ raw, (Json.string lastSecond).HasText raw ∧ PastCalendar raw) ∧
    ∃ i, CommandLine.Invocation.parse none meetingArgs = .ok i ∧
      CommandLine.HasPastText meetingFiles i := by
  obtain ⟨-, hread, -⟩ := read_total meetings "soon" .dateTime
  obtain ⟨-, -, hzoned, -, hjson, hrun⟩ := read_total meetings "2024-01-01T00:15:00+02:00" .dateTime
  obtain ⟨-, -, -, hcompile, -⟩ := read_total meetings lastSecond (.record "Meeting")
  refine ⟨⟨_, rfl, hread _ rfl⟩, hzoned newYear rfl rfl, hcompile {} 0 _ rfl, hjson _ rfl, ?_⟩
  exact hrun CommandLine.bare meetingFiles meetingArgs (by decide +kernel)

/-- The last second is past the calendar, and reading it aborts. -/
theorem read_lastSecond : PastCalendar lastSecond ∧
    Value.read meetings lastSecond .dateTime = .error .beyondCalendar := by
  have hread : Value.read meetings lastSecond .dateTime = .error .beyondCalendar := rfl
  exact ⟨(Value.read_aborts_iff.1 hread).2, hread⟩

end RecordQuery
