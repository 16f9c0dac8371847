import RecordQuery.Proofs.Expr.Reading
import RecordQuery.Proofs.Expr.Rebinding

/-!
# Paths of resolved and of rebound expressions

* `chain?_resolve`, `readPaths_of_chain` : the field reads that a path resolves to read this path;
* `params_resolve`, `exists_eval_resolve` : they refer to the parameters of their root, and have a
  value of their type;
* `readSegment_eq_error`, `resolve_eq_error`, `resolve_yields` : why a path does not resolve;
* `chain?_rebind`, `readPaths_rebind` : over another parameter an expression reads the same paths;
* `freeParams_of_eq` : the free parameters of an expression over one parameter.
-/

namespace RecordQuery.Expr

variable {s : Schema} {p root : Param} {e : Expr} {path : String}

/-! ## Resolved paths -/

theorem extendPath_of_ne {path : String} (h : path ≠ "") (name : String) :
    extendPath path name = path ++ "." ++ name := by
  rw [extendPath, if_neg fun hempty => h (String.isEmpty_iff.1 hempty)]

theorem foldl_extendPath_of_ne {path : String} (h : path ≠ "") (names : List String) :
    names.foldl extendPath path = Text.joined "." (path :: names) := by
  induction names generalizing path with
  | nil => rfl
  | cons name names ih =>
    have hne : path ++ "." ++ name ≠ "" := by
      intro hempty
      have hlen := congrArg String.length hempty
      simp at hlen
    rw [List.foldl_cons, extendPath_of_ne h, ih hne, Text.joined_append_cons, Text.joined]

theorem foldl_extendPath {names : List String} (h : ∀ name ∈ names, name ≠ "") :
    names.foldl extendPath "" = Text.joined "." names := by
  cases names with
  | nil => rfl
  | cons name names => exact foldl_extendPath_of_ne (h name List.mem_cons_self) names

/-- The field reads of a chain extend its path, name by name. -/
theorem chain?_foldlM {names : List String} {start e : Expr} {before : String}
    (h : names.foldlM (readSegment s path) start = .ok e) (hstart : chain? p start = some before) :
    chain? p e = some (names.foldl extendPath before) ∧ ∀ name ∈ names, name ≠ "" := by
  induction names generalizing start before with
  | nil =>
    cases h
    exact ⟨hstart, nofun⟩
  | cons name names ih =>
    rw [List.foldlM_cons, bind_eq_ok] at h
    obtain ⟨e', hstep, hrest⟩ := h
    obtain ⟨hempty, _, -, _, -, f, hf, rfl⟩ := readSegment_eq_ok.1 hstep
    have hname : f.name = name := RecordType.name_of_field? hf
    have hchain : chain? p (.field start f.name f.ty) = some (extendPath before name) := by
      rw [chain?, hstart, hname]
      rfl
    obtain ⟨hpath, hnames⟩ := ih hrest hchain
    refine ⟨hpath, List.forall_mem_cons.2 ⟨?_, hnames⟩⟩
    rintro rfl
    cases hempty

/-- **Resolving a path and reading it back gives the path.** -/
theorem chain?_resolve (h : resolve s (.param root) path = .ok e) : chain? root e = some path := by
  have hroot : chain? root (.param root) = some "" := by rw [chain?, if_pos rfl]
  obtain ⟨hchain, hnames⟩ := chain?_foldlM h hroot
  rw [hchain, foldl_extendPath hnames, Text.joined_split rfl]

theorem readPaths_of_chain (h : chain? p e = some path) : readPaths p e = [path] := by
  cases e with
  | param q =>
    rw [chain?] at h
    rw [readPaths]
    split at h
    · rename_i hq
      rw [if_pos hq, Option.some.inj h]
    · cases h
  | field target name ty =>
    obtain ⟨path', hpath', rfl⟩ := Option.map_eq_some_iff.1 h
    rw [readPaths, hpath']
  | _ => cases h

theorem params_resolve {start : Expr} (h : resolve s start path = .ok e) :
    e.params = start.params := by
  refine foldlM_induction (motive := fun e => e.params = start.params) rfl ?_ h
  intro b segment b' _ hb hstep
  obtain ⟨-, _, -, _, -, f, -, rfl⟩ := readSegment_eq_ok.1 hstep
  exact hb

/-- On a value of the root's type, the field reads of a path lead to a value of their own type. -/
theorem exists_eval_resolve {v : Value} (h : resolve s (.param root) path = .ok e)
    (hv : v.Conforms s root.ty) : ∃ w, e.eval root v = .ok w ∧ w.Conforms s e.ty := by
  have hroot : (Expr.param root).eval root v = .ok v := by rw [eval, if_pos rfl]
  refine foldlM_induction (motive := fun e => ∃ w, e.eval root v = .ok w ∧ w.Conforms s e.ty)
    ⟨v, hroot, hv⟩ ?_ h
  rintro b segment b' - ⟨w, hw, hconf⟩ hstep
  obtain ⟨-, record, hrecord, r, hr, f, hf, rfl⟩ := readSegment_eq_ok.1 hstep
  have hrecord' := hconf.of_underlying_eq (Ty.underlying_of_recordName hrecord)
  obtain ⟨w', hread, hw'⟩ := hrecord'.readField hr (List.mem_of_find?_eq_some hf)
  exact ⟨w', by rw [eval, hw, ok_bind, hread], hw'⟩

/-! ## Paths that do not resolve -/

/-- A segment that is not read is not resolved, or the record type to read it from is not declared. -/
theorem readSegment_eq_error {segment : String} {err : Error}
    (h : readSegment s path e segment = .error err) : err = .unresolved path segment e.ty.text ∨
      ∃ name, e.ty.recordName? = some name ∧ s.record? name = none ∧
        err = .schema (.unknownRecord name) := by
  unfold readSegment at h
  dsimp only at h
  split at h
  · exact .inl (Except.error.inj h).symm
  · split at h
    · exact .inl (Except.error.inj h).symm
    · rename_i name hname
      cases hr : s.record? name with
      | none =>
        rw [Schema.record, hr, Option.elim_none, error_bind] at h
        exact .inr ⟨name, hname, hr, (Except.error.inj h).symm⟩
      | some r =>
        rw [Schema.record, hr, Option.elim_some, ok_bind] at h
        split at h
        · exact .inl (Except.error.inj h).symm
        · cases h

theorem resolve_eq_error {start : Expr} {err : Error} (h : resolve s start path = .error err) :
    (∃ segment onType, err = .unresolved path segment onType) ∨
      ∃ name, err = .schema (.unknownRecord name) := by
  have hyields : Yields (fun _ : Expr => True)
      (fun err => (∃ segment onType, err = .unresolved path segment onType) ∨
        ∃ name, err = .schema (.unknownRecord name)) (resolve s start path) := by
    refine Yields.foldlM trivial fun e segment _ _ => Yields.iff.2 ?_
    cases hstep : readSegment s path e segment with
    | ok e' => exact .inl ⟨e', rfl, trivial⟩
    | error err =>
      rcases readSegment_eq_error hstep with rfl | ⟨name, -, -, rfl⟩
      · exact .inr ⟨_, rfl, .inl ⟨_, _, rfl⟩⟩
      · exact .inr ⟨_, rfl, .inr ⟨name, rfl⟩⟩
  exact hyields.of_eq_error h

/-- From a type with a property that all field types have, and that only declared record types have,
a path leads to a type with the property or is not resolved. -/
theorem resolve_yields {P : Ty → Prop} {start : Expr}
    (hfields : ∀ r ∈ s.records, ∀ f ∈ r.fields, P f.ty)
    (hdeclared : ∀ ty name, P ty → ty.recordName? = some name → s.record? name ≠ none)
    (hstart : P start.ty) : Yields (fun e : Expr => P e.ty)
      (fun err => ∃ segment onType, err = .unresolved path segment onType) (resolve s start path) := by
  refine Yields.foldlM hstart fun e segment _ he => Yields.iff.2 ?_
  cases hstep : readSegment s path e segment with
  | ok e' =>
    obtain ⟨-, name, -, r, hr, f, hf, rfl⟩ := readSegment_eq_ok.1 hstep
    exact .inl ⟨_, rfl, hfields r (List.mem_of_find?_eq_some hr) f (List.mem_of_find?_eq_some hf)⟩
  | error err =>
    rcases readSegment_eq_error hstep with rfl | ⟨name, hname, hr, -⟩
    · exact .inr ⟨_, rfl, _, _, rfl⟩
    · exact absurd hr (hdeclared e.ty name he hname)

/-! ## Rebound expressions -/

theorem chain?_rebind (h : ∀ q ∈ e.params, q.id = p.id) :
    chain? root (rebind p (.param root) e) = chain? p e := by
  induction e using Expr.induction with
  | param q =>
    have hq : q.id = p.id := h q (List.mem_singleton_self q)
    rw [rebind, if_pos hq, chain?, chain?, if_pos rfl, if_pos hq]
  | field target name ty ih => rw [rebind, chain?, chain?, ih h]
  | _ => rw [rebind]; rfl

/-- **Over another parameter an expression reads the same paths.** A chain of field reads is one before
and after, so it is reported at the same place. -/
theorem readPaths_rebind (h : ∀ q ∈ e.params, q.id = p.id) :
    readPaths root (rebind p (.param root) e) = readPaths p e := by
  have hargs {es : List Expr} (h : ∀ e ∈ es, readPaths root (rebind p (.param root) e) =
      readPaths p e) :
      readPathsAll root (rebindAll p (.param root) es) = readPathsAll p es := by
    rw [readPathsAll_eq_flatMap, readPathsAll_eq_flatMap, rebindAll_eq_map, List.flatMap_map]
    exact List.flatMap_congr h
  induction e using Expr.induction with
  | param q =>
    have hq : q.id = p.id := h q (List.mem_singleton_self q)
    rw [rebind, if_pos hq, readPaths, readPaths, if_pos rfl, if_pos hq]
  | field target name ty ih =>
    have hchain : chain? root (rebind p (.param root) target) = chain? p target := chain?_rebind h
    rw [rebind, readPaths, readPaths, hchain, ih h]
  | literal value ty => rfl
  | binary op left right ihl ihr =>
    rw [params, List.forall_mem_append] at h
    rw [rebind, readPaths, readPaths, ihl h.1, ihr h.2]
  | not operand ih => rw [rebind, readPaths, readPaths, ih h]
  | call m target args iht iha =>
    rw [params, List.forall_mem_append, forall_mem_paramsAll] at h
    rw [rebind, readPaths, readPaths, iht h.1, hargs fun a ha => iha a ha (h.2 a ha)]
  | conditional test ifTrue ifFalse ty iht ih1 ih2 =>
    rw [params, List.forall_mem_append, List.forall_mem_append] at h
    rw [rebind, readPaths, readPaths, iht h.1.1, ih1 h.1.2, ih2 h.2]
  | convert operand ty ih => rw [rebind, readPaths, readPaths, ih h]
  | construct shape args iha =>
    rw [params, forall_mem_paramsAll] at h
    rw [rebind, readPaths, readPaths, hargs fun a ha => iha a ha (h a ha)]

/-! ## Free parameters -/

theorem foldl_addParam_of_eq {ps : List Param} (h : ∀ q ∈ ps, q = root) :
    ps.foldl addParam [root] = [root] := by
  induction ps with
  | nil => rfl
  | cons q ps ih =>
    obtain ⟨rfl, hps⟩ := List.forall_mem_cons.1 h
    have hadd : addParam [q] q = [q] := by simp [addParam]
    rw [List.foldl_cons, hadd, ih hps]

/-- An expression over one parameter has this one as its only free parameter, or none. -/
theorem freeParams_of_eq (h : ∀ q ∈ e.params, q = root) :
    e.freeParams = [] ∨ e.freeParams = [root] := by
  unfold freeParams
  cases hps : e.params with
  | nil => exact .inl rfl
  | cons q ps =>
    rw [hps] at h
    obtain ⟨rfl, hps⟩ := List.forall_mem_cons.1 h
    exact .inr (foldl_addParam_of_eq hps)

end RecordQuery.Expr
