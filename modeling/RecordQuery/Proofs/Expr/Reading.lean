import RecordQuery.Proofs.Expr.Soundness
import RecordQuery.Proofs.Text.Split

/-!
# Reading paths

A function reads of its argument what its member paths reach, and nothing else.

* `Value.readPath` : the value at the end of a dotted path;
* `eval_resolve`, `eval_resolve_param`, `eval_of_chain` : the field reads of a path, and the path of a
  chain of field reads;
* `Expr.NamesSegments` : the fields that are read have names that can be segments of paths;
* `eval_congr`, `Lambda.invoke_congr` : arguments that agree on all member paths give one result.
-/

namespace RecordQuery

/-! ## Paths on values -/

namespace Value

/-- The value that the fields of the names lead to, one after the other. -/
def readNames (names : List String) (v : Value) : Except Error Value :=
  names.foldlM (fun v name => v.readField name) v

theorem readNames_cons (name : String) (names : List String) (v : Value) :
    v.readNames (name :: names) = (v.readField name >>= fun w => w.readNames names) := by
  rw [readNames, List.foldlM_cons]
  rfl

theorem readNames_singleton (name : String) (v : Value) : v.readNames [name] = v.readField name := by
  rw [readNames_cons]
  cases v.readField name <;> rfl

theorem readNames_append (names names' : List String) (v : Value) :
    v.readNames (names ++ names') = (v.readNames names >>= fun w => w.readNames names') := by
  rw [readNames, List.foldlM_append]
  rfl

/-- The value at the end of the path; the empty path stays where it is. -/
def readPath (path : String) (v : Value) : Except Error Value :=
  if path.isEmpty then .ok v else v.readNames (Text.split path ".")

@[simp] theorem readPath_empty (v : Value) : v.readPath "" = .ok v := rfl

theorem readPath_of_ne {path : String} (h : path ≠ "") (v : Value) :
    v.readPath path = v.readNames (Text.split path ".") := by
  rw [readPath, if_neg fun hempty => h (String.isEmpty_iff.1 hempty)]

end Value

/-- The name can be a segment of a path: it is not empty and has no dot. -/
def IsSegment (name : String) : Prop := name ≠ "" ∧ '.' ∉ name.toList

namespace Expr

theorem readPath_extendPath {name : String} (h : IsSegment name) (path : String) (v : Value) :
    v.readPath (extendPath path name) = (v.readPath path >>= fun w => w.readField name) := by
  have hsplit : Text.split name "." = [name] := Text.split_eq_singleton rfl h.2
  by_cases hpath : path = ""
  · rw [hpath, Value.readPath_empty, ok_bind]
    show v.readPath name = _
    rw [Value.readPath_of_ne h.1, hsplit, Value.readNames_singleton]
  · have hext : extendPath path name = path ++ "." ++ name := by
      rw [extendPath, if_neg fun hempty => hpath (String.isEmpty_iff.1 hempty)]
    have hne : path ++ "." ++ name ≠ "" := by
      intro hempty
      have hlen := congrArg String.length hempty
      simp at hlen
    rw [hext, Value.readPath_of_ne hne, Value.readPath_of_ne hpath, Text.split_append rfl, hsplit,
      Value.readNames_append]
    simp only [Value.readNames_singleton]

/-! ## Paths and field reads -/

variable {s : Schema} {p : Param} {arg : Value}

theorem eval_foldlM_readSegment {path : String} {names : List String} {root e : Expr}
    (h : names.foldlM (readSegment s path) root = .ok e) :
    e.eval p arg = (root.eval p arg >>= fun v => v.readNames names) := by
  induction names generalizing root with
  | nil =>
    rw [← Except.ok.inj h]
    cases root.eval p arg <;> rfl
  | cons name names ih =>
    rw [List.foldlM_cons, bind_eq_ok] at h
    obtain ⟨e', hstep, hrest⟩ := h
    obtain ⟨-, _, -, _, -, f, hf, rfl⟩ := readSegment_eq_ok.1 hstep
    have hname : f.name = name := RecordType.name_of_field? hf
    rw [ih hrest, eval, hname]
    simp only [Value.readNames_cons, bind_assoc]

theorem resolve_ne_empty {root e : Expr} {path : String} (h : resolve s root path = .ok e) :
    path ≠ "" := by
  rintro rfl
  rw [resolve, Text.split_eq_singleton rfl (by simp), List.foldlM_cons, bind_eq_ok] at h
  obtain ⟨e', hstep, -⟩ := h
  cases (readSegment_eq_ok.1 hstep).1

theorem eval_resolve {root e : Expr} {path : String} (h : resolve s root path = .ok e) :
    e.eval p arg = (root.eval p arg >>= fun v => v.readPath path) := by
  rw [eval_foldlM_readSegment h]
  simp only [Value.readPath_of_ne (resolve_ne_empty h)]

theorem eval_resolve_param {e : Expr} {path : String} (h : resolve s (.param p) path = .ok e) :
    e.eval p arg = arg.readPath path := by
  rw [eval_resolve h, eval, if_pos rfl, ok_bind]

/-- The fields that are read have names that can be segments of paths. -/
def NamesSegments (e : Expr) : Prop :=
  ∀ target name ty, Part (.field target name ty) e → IsSegment name

theorem NamesSegments.mono {a e : Expr} (h : e.NamesSegments) (hpart : ∀ b, Part b a → Part b e) :
    a.NamesSegments :=
  fun target name ty ha => h target name ty (hpart _ ha)

/-- A chain of field reads on the parameter reads its path from the argument. -/
theorem eval_of_chain {e : Expr} {path : String} (hnames : e.NamesSegments)
    (h : chain? p e = some path) : e.eval p arg = arg.readPath path := by
  induction e using Expr.induction generalizing path with
  | param q =>
    rw [chain?] at h
    split at h
    · rename_i hq
      cases h
      rw [eval, if_pos hq, Value.readPath_empty]
    · cases h
  | field target name ty ih =>
    obtain ⟨path', hpath', rfl⟩ := Option.map_eq_some_iff.1 h
    rw [readPath_extendPath (hnames target name ty (.refl _)), eval,
      ih (hnames.mono fun _ => .field) hpath']
  | _ => cases h

/-! ## Names that the resolver lets in -/

theorem NamesSegments.field {target : Expr} {name : String} (h : target.NamesSegments)
    (hname : IsSegment name) (ty : Ty) : (Expr.field target name ty).NamesSegments := by
  intro target' name' ty' hpart
  cases hpart with
  | refl => exact hname
  | field hpart => exact h _ _ _ hpart

theorem NamesSegments.resolve {root e : Expr} {path : String} (hroot : root.NamesSegments)
    (h : resolve s root path = .ok e) : e.NamesSegments := by
  refine foldlM_induction hroot (fun b segment b' hmem hb hstep => ?_) h
  obtain ⟨hempty, _, -, _, -, f, hf, rfl⟩ := readSegment_eq_ok.1 hstep
  have hname : f.name = segment := RecordType.name_of_field? hf
  have hsegment : IsSegment segment := by
    refine ⟨?_, Text.notMem_of_mem_split rfl hmem⟩
    rintro rfl
    cases hempty
  exact hb.field (hname ▸ hsegment) f.ty

theorem Built.namesSegments {e : Expr} (h : e.Built s) : e.NamesSegments := by
  induction h with
  | param q => exact fun _ _ _ hpart => nomatch hpart
  | path _ h ih => exact ih.resolve h
  | literal _ h =>
    obtain ⟨-, rfl⟩ := mkLiteral_eq_ok.1 h
    exact fun _ _ _ hpart => nomatch hpart
  | null ty => exact fun _ _ _ hpart => nomatch hpart
  | binary _ _ h ihl ihr =>
    obtain ⟨-, rfl⟩ := mkBinary_eq_ok.1 h
    intro _ _ _ hpart
    cases hpart with
    | left hpart => exact ihl _ _ _ hpart
    | right hpart => exact ihr _ _ _ hpart
  | not _ h ih =>
    obtain ⟨-, rfl⟩ := mkNot_eq_ok.1 h
    intro _ _ _ hpart
    cases hpart with
    | not hpart => exact ih _ _ _ hpart
  | call _ _ h iht iha =>
    obtain ⟨-, rfl⟩ := mkCall_eq_ok.1 h
    intro _ _ _ hpart
    cases hpart with
    | target hpart => exact iht _ _ _ hpart
    | arg ha hpart => exact iha _ ha _ _ _ hpart
  | conditional _ _ _ h iht ih1 ih2 =>
    obtain ⟨-, rfl⟩ := mkConditional_eq_ok.1 h
    intro _ _ _ hpart
    cases hpart with
    | test hpart => exact iht _ _ _ hpart
    | ifTrue hpart => exact ih1 _ _ _ hpart
    | ifFalse hpart => exact ih2 _ _ _ hpart
  | convert _ h ih =>
    obtain ⟨-, rfl⟩ := mkConvert_eq_ok.1 h
    intro _ _ _ hpart
    cases hpart with
    | convert hpart => exact ih _ _ _ hpart
  | construct _ h iha =>
    obtain ⟨-, rfl⟩ := mkConstruct_eq_ok.1 h
    intro _ _ _ hpart
    cases hpart with
    | component ha hpart => exact iha _ ha _ _ _ hpart

/-! ## Member paths -/

theorem mem_insertSorted {path text : String} {paths : List String} :
    path ∈ insertSorted text paths ↔ path = text ∨ path ∈ paths := by
  induction paths with
  | nil => rw [insertSorted, List.mem_cons]
  | cons t ts ih =>
    rw [insertSorted]
    split
    · rename_i heq
      rw [heq, List.mem_cons, or_self_left]
    · split
      · rw [List.mem_cons]
      · rw [List.mem_cons, ih, List.mem_cons, or_left_comm]

theorem mem_foldl_insertSorted {path : String} {texts paths : List String} :
    path ∈ texts.foldl (fun paths text => insertSorted text paths) paths ↔
      path ∈ paths ∨ path ∈ texts := by
  induction texts generalizing paths with
  | nil => simp
  | cons text texts ih =>
    rw [List.foldl_cons, ih, mem_insertSorted, List.mem_cons, or_assoc, or_left_comm]

theorem mem_memberPaths {path : String} {e : Expr} : path ∈ memberPaths p e ↔ path ∈ readPaths p e := by
  rw [memberPaths, mem_foldl_insertSorted]
  simp

theorem readPathsAll_eq_flatMap (es : List Expr) : readPathsAll p es = es.flatMap (readPaths p) := by
  induction es with
  | nil => rfl
  | cons e es ih => rw [readPathsAll, List.flatMap_cons, ih]

theorem evalAll_congr {es : List Expr} {v w : Value} (h : ∀ e ∈ es, e.eval p v = e.eval p w) :
    evalAll p v es = evalAll p w es := by
  rw [evalAll_eq_mapM, evalAll_eq_mapM]
  exact mapM_congr h

/-- **Arguments that agree on all paths that an expression reads give it one result.** -/
theorem eval_congr {e : Expr} {v w : Value} (hnames : e.NamesSegments)
    (h : ∀ path ∈ readPaths p e, v.readPath path = w.readPath path) :
    e.eval p v = e.eval p w := by
  induction e using Expr.induction with
  | param q =>
    rw [eval, eval]
    split
    · rename_i hq
      have hempty := h "" (by rw [readPaths, if_pos hq]; exact List.mem_singleton_self "")
      exact hempty
    · rfl
  | field target name ty ih =>
    -- Of a chain on the parameter only the whole path is reported, and it is read at once.
    rw [readPaths] at h
    split at h
    · rename_i path hpath
      have hchain : chain? p (.field target name ty) = some (extendPath path name) := by
        rw [chain?, hpath]
        rfl
      rw [eval_of_chain hnames hchain, eval_of_chain hnames hchain]
      exact h _ (List.mem_singleton_self _)
    · rw [eval, eval, ih (hnames.mono fun _ => .field) h]
  | literal value ty => rfl
  | binary op left right ihl ihr =>
    simp only [readPaths, List.forall_mem_append] at h
    rw [eval, eval, ihl (hnames.mono fun _ => .left) h.1, ihr (hnames.mono fun _ => .right) h.2]
  | not operand ih => rw [eval, eval, ih (hnames.mono fun _ => .not) h]
  | call m target args iht iha =>
    simp only [readPaths, readPathsAll_eq_flatMap, List.forall_mem_append,
      List.forall_mem_flatMap] at h
    have hargs := evalAll_congr fun a ha => iha a ha (hnames.mono fun _ => .arg ha) (h.2 a ha)
    rw [eval, eval, iht (hnames.mono fun _ => .target) h.1, hargs]
  | conditional test ifTrue ifFalse ty iht ih1 ih2 =>
    simp only [readPaths, List.forall_mem_append] at h
    rw [eval, eval, iht (hnames.mono fun _ => .test) h.1.1,
      ih1 (hnames.mono fun _ => .ifTrue) h.1.2, ih2 (hnames.mono fun _ => .ifFalse) h.2]
  | convert operand ty ih => rw [eval, eval, ih (hnames.mono fun _ => .convert) h]
  | construct shape args iha =>
    simp only [readPaths, readPathsAll_eq_flatMap, List.forall_mem_flatMap] at h
    have hargs := evalAll_congr fun a ha => iha a ha (hnames.mono fun _ => .component ha) (h a ha)
    rw [eval, eval, hargs]

end Expr

/-- **A function reads its member paths only.** Two arguments that give the same value or the same
error at the end of each member path give the same result. -/
theorem Lambda.invoke_congr (l : Lambda) (v w : Value) (hnames : l.body.NamesSegments)
    (h : ∀ path ∈ l.memberPaths, v.readPath path = w.readPath path) : l.invoke v = l.invoke w :=
  Expr.eval_congr hnames fun path hpath => h path (Expr.mem_memberPaths.2 hpath)

/-- The guest with a credit limit, and a name that no type declares. -/
def namedGuest : Value :=
  .record [("Name", .string "Ann"),
    ("Card", .record [("Limit", .float (.ofInt 100)), ("Owner", .record [("Age", .int 30)])])]

/-- The paths that the function reads are `Age` and `Card.Owner.Age`. -/
theorem ageIfGrown_namedGuest :
    ageIfGrown.body.NamesSegments ∧
    (∀ path ∈ ageIfGrown.memberPaths, guest.readPath path = namedGuest.readPath path) ∧
      ageIfGrown.invoke guest = ageIfGrown.invoke namedGuest := by
  have hpaths : ageIfGrown.memberPaths = ["Age", "Card.Owner.Age"] := rfl
  have hread : ∀ path ∈ ageIfGrown.memberPaths, guest.readPath path = namedGuest.readPath path := by
    rw [hpaths]
    intro path hpath
    rcases List.mem_cons.1 hpath with rfl | hpath
    · rfl
    · rw [List.mem_singleton.1 hpath]
      rfl
  have hnames := ageIfGrown_built.namesSegments
  exact ⟨hnames, hread, ageIfGrown.invoke_congr guest namedGuest hnames hread⟩

end RecordQuery
