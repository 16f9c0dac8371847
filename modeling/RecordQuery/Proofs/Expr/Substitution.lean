import RecordQuery.Proofs.Expr.Rebinding
import RecordQuery.Proofs.Expr.Soundness
import RecordQuery.Proofs.Text.Split

/-!
# Rebinding as substitution

An expression of the parameter's type can take its place: no type changes, every node remains one that
its constructor accepts, and the parameter is no longer free.

* `ty_rebind`, `resolve_rebind` : the types of expressions and the paths on them stay as they are;
* `Expr.Checked s e` : every node of `e` is what its checked constructor makes of its operands;
* `Checked.resolve`, `Built.checked` : expressions made by the constructors and the resolver are so;
* `Checked.rebind` : an expression remains so, when a checked one of the parameter's type takes its
  place;
* `Param.FreeIn`, `freeIn_rebind` : the parameters that are free afterwards;
* `rebind_substitutes` : the value, the types and the free parameters of an expression after rebinding.
-/

namespace RecordQuery

namespace Expr

variable {s : Schema} {p : Param} {image e target left right operand : Expr} {args : List Expr}

/-! ## Types -/

namespace Consistent

theorem binary {op : BinaryOp} (h : (Expr.binary op left right).Consistent p) :
    left.Consistent p ∧ right.Consistent p := by
  unfold Consistent at h
  rwa [params, List.forall_mem_append] at h

theorem args_of_all (h : ∀ q ∈ paramsAll args, q.id = p.id → q.ty = p.ty) :
    ∀ a ∈ args, a.Consistent p :=
  forall_mem_paramsAll.1 h

theorem call {m : Method} (h : (Expr.call m target args).Consistent p) :
    target.Consistent p ∧ ∀ a ∈ args, a.Consistent p := by
  unfold Consistent at h
  rw [params, List.forall_mem_append] at h
  exact ⟨h.1, args_of_all h.2⟩

theorem conditional {test ifTrue ifFalse : Expr} {ty : Ty}
    (h : (Expr.conditional test ifTrue ifFalse ty).Consistent p) :
    test.Consistent p ∧ ifTrue.Consistent p ∧ ifFalse.Consistent p := by
  unfold Consistent at h
  rw [params, List.forall_mem_append, List.forall_mem_append] at h
  exact ⟨h.1.1, h.1.2, h.2⟩

end Consistent

theorem ty_rebind (h : e.Consistent p) (hty : image.ty = p.ty) : (rebind p image e).ty = e.ty := by
  cases e with
  | param q =>
    rw [rebind]
    split
    · rename_i hq
      rw [hty]
      exact (h q (List.mem_singleton_self q) hq).symm
    · rfl
  | call m target args =>
    rw [rebind]
    cases m <;> rfl
  | literal value ty => rw [rebind]
  | _ => rw [rebind]; rfl

theorem map_ty_rebindAll (h : ∀ a ∈ args, a.Consistent p) (hty : image.ty = p.ty) :
    (rebindAll p image args).map Expr.ty = args.map Expr.ty := by
  rw [rebindAll_eq_map, List.map_map]
  exact List.map_congr_left fun a ha => ty_rebind (h a ha) hty

/-- A path on an expression is found on its rebound form of the same type as well. -/
theorem resolve_rebind {path : String} {start : Expr} (hty : (rebind p image start).ty = start.ty)
    (h : resolve s start path = .ok e) :
    resolve s (rebind p image start) path = .ok (rebind p image e) := by
  unfold resolve at h ⊢
  generalize Text.split path "." = names at h ⊢
  induction names generalizing start with
  | nil =>
    cases h
    rfl
  | cons name names ih =>
    rw [List.foldlM_cons, bind_eq_ok] at h ⊢
    obtain ⟨e', hstep, hrest⟩ := h
    obtain ⟨hempty, record, hrecord, r, hr, f, hf, rfl⟩ := readSegment_eq_ok.1 hstep
    have hrecord' : (rebind p image start).ty.recordName? = some record := by rw [hty, hrecord]
    have hstep' : readSegment s path (rebind p image start) name =
        .ok (rebind p image (.field start f.name f.ty)) :=
      readSegment_eq_ok.2 ⟨hempty, record, hrecord', r, hr, f, hf, by rw [rebind]⟩
    have hfield : (rebind p image (.field start f.name f.ty)).ty = f.ty := by rw [rebind]; rfl
    exact ⟨_, hstep', ih hfield hrest⟩

/-! ## Checked expressions -/

/-- Every node is what its checked constructor makes of its operands; for the read of a field, this is
the resolver of paths. -/
inductive Checked (s : Schema) : Expr → Prop
  | param (p : Param) : Checked s (.param p)
  | field {target : Expr} {name : String} {ty : Ty} (htarget : Checked s target)
      (h : resolve s target name = .ok (.field target name ty)) : Checked s (.field target name ty)
  | literal {value : Value} {ty : Ty} (h : mkLiteral value ty = .ok (.literal value ty)) :
      Checked s (.literal value ty)
  | binary {op : BinaryOp} {left right : Expr} (hleft : Checked s left) (hright : Checked s right)
      (h : mkBinary op left right = .ok (.binary op left right)) : Checked s (.binary op left right)
  | not {operand : Expr} (hoperand : Checked s operand) (h : mkNot operand = .ok (.not operand)) :
      Checked s (.not operand)
  | call {m : Method} {target : Expr} {args : List Expr} (htarget : Checked s target)
      (hargs : ∀ a ∈ args, Checked s a) (h : mkCall m target args = .ok (.call m target args)) :
      Checked s (.call m target args)
  | conditional {test ifTrue ifFalse : Expr} {ty : Ty} (htest : Checked s test)
      (htrue : Checked s ifTrue) (hfalse : Checked s ifFalse)
      (h : mkConditional test ifTrue ifFalse = .ok (.conditional test ifTrue ifFalse ty)) :
      Checked s (.conditional test ifTrue ifFalse ty)
  | convert {operand : Expr} {ty : Ty} (hoperand : Checked s operand)
      (h : mkConvert operand ty = .ok (.convert operand ty)) : Checked s (.convert operand ty)
  | construct {shape : Shape} {args : List Expr} (hargs : ∀ a ∈ args, Checked s a)
      (h : mkConstruct shape args = .ok (.construct shape args)) : Checked s (.construct shape args)

theorem Checked.resolve {path : String} {start : Expr} (hstart : start.Checked s)
    (h : resolve s start path = .ok e) : e.Checked s := by
  refine foldlM_induction (motive := Checked s) hstart ?_ h
  intro b name b' hname hb hstep
  obtain ⟨hempty, record, hrecord, r, hr, f, hf, rfl⟩ := readSegment_eq_ok.1 hstep
  have hfname : f.name = name := RecordType.name_of_field? hf
  have hsplit : Text.split name "." = [name] :=
    Text.split_eq_singleton rfl (Text.notMem_of_mem_split rfl hname)
  have hread : readSegment s name b name = .ok (.field b f.name f.ty) :=
    readSegment_eq_ok.2 ⟨hempty, record, hrecord, r, hr, f, hf, rfl⟩
  refine .field hb ?_
  rw [hfname] at hread ⊢
  rw [Expr.resolve, hsplit, List.foldlM_cons, hread]
  rfl

theorem Built.checked (h : e.Built s) : e.Checked s := by
  induction h with
  | param p => exact .param p
  | path _ h ih => exact ih.resolve h
  | literal _ h =>
    obtain ⟨-, rfl⟩ := mkLiteral_eq_ok.1 h
    exact .literal h
  | null ty => exact .literal (mkLiteral_eq_ok.2 ⟨by unfold Value.fits; rfl, rfl⟩)
  | binary _ _ h ihl ihr =>
    obtain ⟨-, rfl⟩ := mkBinary_eq_ok.1 h
    exact .binary ihl ihr h
  | not _ h ih =>
    obtain ⟨-, rfl⟩ := mkNot_eq_ok.1 h
    exact .not ih h
  | call _ _ h iht iha =>
    obtain ⟨-, rfl⟩ := mkCall_eq_ok.1 h
    exact .call iht iha h
  | conditional _ _ _ h iht ih1 ih2 =>
    obtain ⟨-, rfl⟩ := mkConditional_eq_ok.1 h
    exact .conditional iht ih1 ih2 h
  | convert _ h ih =>
    obtain ⟨-, rfl⟩ := mkConvert_eq_ok.1 h
    exact .convert ih h
  | construct _ h iha =>
    obtain ⟨-, rfl⟩ := mkConstruct_eq_ok.1 h
    exact .construct iha h

theorem forall_checked_rebindAll (h : ∀ a ∈ args, (rebind p image a).Checked s) :
    ∀ a ∈ rebindAll p image args, a.Checked s := by
  rwa [rebindAll_eq_map, List.forall_mem_map]

/-- **Every constructor accepts the rebound operands**, for it looks at nothing but their types. -/
theorem Checked.rebind (he : e.Checked s) (himage : image.Checked s) (h : e.Consistent p)
    (hty : image.ty = p.ty) : (rebind p image e).Checked s := by
  induction he with
  | param q =>
    rw [Expr.rebind]
    split
    · exact himage
    · exact .param q
  | @field target _ _ _ hread ih =>
    have ht : target.Consistent p := h
    have hread' := resolve_rebind (ty_rebind ht hty) hread
    rw [Expr.rebind] at hread' ⊢
    exact .field (ih ht) hread'
  | literal hlit =>
    rw [Expr.rebind]
    exact .literal hlit
  | binary _ _ hop ihl ihr =>
    obtain ⟨hl, hr⟩ := h.binary
    obtain ⟨hop, -⟩ := mkBinary_eq_ok.1 hop
    rw [Expr.rebind]
    refine .binary (ihl hl) (ihr hr) (mkBinary_eq_ok.2 ⟨?_, rfl⟩)
    rwa [ty_rebind hl hty, ty_rebind hr hty]
  | @not operand _ hbool ih =>
    have ho : operand.Consistent p := h
    obtain ⟨hbool, -⟩ := mkNot_eq_ok.1 hbool
    rw [Expr.rebind]
    refine .not (ih ho) (mkNot_eq_ok.2 ⟨?_, rfl⟩)
    rwa [ty_rebind ho hty]
  | call _ _ hm iht iha =>
    obtain ⟨ht, ha⟩ := h.call
    obtain ⟨hm, -⟩ := mkCall_eq_ok.1 hm
    rw [Expr.rebind]
    refine .call (iht ht) ?_ (mkCall_eq_ok.2 ⟨?_, rfl⟩)
    · exact forall_checked_rebindAll fun a hmem => iha a hmem (ha a hmem)
    · rwa [ty_rebind ht hty, map_ty_rebindAll ha hty]
  | conditional _ _ _ hcond iht ih1 ih2 =>
    obtain ⟨ht, h1, h2⟩ := h.conditional
    obtain ⟨hcond, hshape⟩ := mkConditional_eq_ok.1 hcond
    rw [Expr.rebind]
    refine .conditional (iht ht) (ih1 h1) (ih2 h2) (mkConditional_eq_ok.2 ?_)
    rw [ty_rebind ht hty, ty_rebind h1 hty, ty_rebind h2 hty]
    refine ⟨hcond, ?_⟩
    cases hshape
    rfl
  | @convert operand _ _ heq ih =>
    have ho : operand.Consistent p := h
    obtain ⟨heq, -⟩ := mkConvert_eq_ok.1 heq
    rw [Expr.rebind]
    refine .convert (ih ho) (mkConvert_eq_ok.2 ⟨?_, rfl⟩)
    rwa [ty_rebind ho hty]
  | construct _ htys iha =>
    have ha := Consistent.args_of_all h
    obtain ⟨htys, -⟩ := mkConstruct_eq_ok.1 htys
    rw [Expr.rebind]
    refine .construct ?_ (mkConstruct_eq_ok.2 ⟨?_, rfl⟩)
    · exact forall_checked_rebindAll fun a hmem => iha a hmem (ha a hmem)
    · rwa [map_ty_rebindAll ha hty]

end Expr

/-! ## Free parameters -/

def Param.FreeIn (q : Param) (e : Expr) : Prop := ∃ r ∈ e.freeParams, r.id = q.id

theorem Param.freeIn_iff {q : Param} {e : Expr} : q.FreeIn e ↔ ∃ r ∈ e.params, r.id = q.id :=
  Expr.exists_mem_freeParams

/-- Free after rebinding are the other parameters that were, and those of the image if it took a
place. -/
theorem Param.freeIn_rebind (p q : Param) (image e : Expr) : q.FreeIn (Expr.rebind p image e) ↔
    q.id ≠ p.id ∧ q.FreeIn e ∨ p.FreeIn e ∧ q.FreeIn image := by
  simp only [Param.freeIn_iff, Expr.params_rebind, List.mem_flatMap]
  constructor
  · rintro ⟨r, ⟨r', hr', hr⟩, hrq⟩
    split at hr
    · rename_i hp
      exact .inr ⟨⟨r', hr', hp⟩, r, hr, hrq⟩
    · rename_i hp
      obtain rfl := List.mem_singleton.1 hr
      exact .inl ⟨hrq ▸ hp, r, hr', hrq⟩
  · rintro (⟨hne, r, hr, hrq⟩ | ⟨⟨r', hr', hp⟩, r, hr, hrq⟩)
    · refine ⟨r, ⟨r, hr, ?_⟩, hrq⟩
      rw [if_neg (hrq ▸ hne)]
      exact List.mem_singleton_self r
    · refine ⟨r, ⟨r', hr', ?_⟩, hrq⟩
      rw [if_pos hp]
      exact hr

/-! ## Substitution as a whole -/

theorem Mapping.isClosed_of_ofLambda {name : String} {l : Lambda} {m : Mapping}
    (h : Mapping.ofLambda name l = .ok m) : l.IsClosed := by
  unfold Mapping.ofLambda at h
  split at h
  · cases h
  · rename_i hnone
    intro q hq
    simpa using List.find?_eq_none.1 hnone q hq

/-- **Rebinding is substitution.** An expression over one parameter has, with an image in its place, the
value that it has when the parameter has the value of the image. If the image has the type of the
parameter, no type changes and every node remains one that its constructor accepts. The free parameters
are the other ones, and those of the image if the parameter was free. So the function of a computed
mapping over another root is the same function. -/
theorem rebind_substitutes (p : Param) (image e : Expr) :
    ((∀ q ∈ e.freeParams, q.id = p.id) → ∀ x v w, image.eval x v = .ok w →
      (Expr.rebind p image e).eval x v = e.eval p w) ∧
    (e.Consistent p → image.ty = p.ty → (Expr.rebind p image e).ty = e.ty ∧
      ∀ s, e.Checked s → image.Checked s → (Expr.rebind p image e).Checked s) ∧
    (∀ q : Param, q.FreeIn (Expr.rebind p image e) ↔
      q.id ≠ p.id ∧ q.FreeIn e ∨ p.FreeIn e ∧ q.FreeIn image) ∧
    ∀ name l m, Mapping.ofLambda name l = .ok m → ∀ root v,
      (⟨root, l.applyTo root⟩ : Lambda).invoke v = l.invoke v := by
  refine ⟨fun hfree x v w himage => ?_, fun hconsistent hty => ⟨Expr.ty_rebind hconsistent hty, ?_⟩,
    fun q => Param.freeIn_rebind p q image e, fun name l m hm root v => ?_⟩
  · refine Expr.eval_rebind (fun q hq => ?_) himage
    obtain ⟨r, hr, hrq⟩ := Expr.exists_mem_freeParams.2 ⟨q, hq, rfl⟩
    rw [← hrq, hfree r hr]
  · exact fun s he himage => he.rebind himage hconsistent hty
  · exact Lambda.eval_applyTo (Mapping.isClosed_of_ofLambda hm) root v

/-! ## The owner of a card in place of a person -/

def host : Param := ⟨2, "host", .record "Person"⟩

def ownerOf : Expr :=
  .field (.field (.param host) "Card" (.nullable (.record "Card"))) "Owner" (.record "Person")

/-- The guest's sponsor has no card, so no owner of one is of age. -/
theorem ageIfGrown_ownerOf :
    (Expr.rebind person ownerOf ageIfGrown.body).eval host guest = .ok (.int 0) ∧
      (Expr.rebind person ownerOf ageIfGrown.body).ty = .int ∧
      (Expr.rebind person ownerOf ageIfGrown.body).Checked people ∧
      host.FreeIn (Expr.rebind person ownerOf ageIfGrown.body) ∧
      ¬person.FreeIn (Expr.rebind person ownerOf ageIfGrown.body) ∧
      (⟨host, ageIfGrown.applyTo host⟩ : Lambda).invoke guest = ageIfGrown.invoke guest := by
  obtain ⟨hvalue, htypes, hfree, hmapping⟩ := rebind_substitutes person ownerOf ageIfGrown.body
  have howner : ownerOf.eval host guest = .ok (.record [("Age", .int 30)]) := rfl
  have hconsistent : ageIfGrown.body.Consistent person := by unfold Expr.Consistent; decide
  have hchecked : ownerOf.Checked people :=
    (Expr.Checked.param host).resolve
      (show Expr.resolve people (.param host) "Card.Owner" = .ok ownerOf from rfl)
  obtain ⟨hty, hnodes⟩ := htypes hconsistent rfl
  obtain ⟨m, hm⟩ : ∃ m, Mapping.ofLambda "age" ageIfGrown = .ok m := ⟨_, rfl⟩
  have hpersonFree : person.FreeIn ageIfGrown.body := ⟨person, by decide, rfl⟩
  have hhostFree : host.FreeIn ownerOf := ⟨host, by decide, rfl⟩
  refine ⟨?_, hty, hnodes people ageIfGrown_built.checked hchecked,
    (hfree host).2 (.inr ⟨hpersonFree, hhostFree⟩), ?_, hmapping "age" ageIfGrown m hm host guest⟩
  · rw [hvalue ageIfGrown_closed host guest _ howner]
    rfl
  · rw [hfree]
    rintro (⟨hne, -⟩ | ⟨-, r, hr, hid⟩)
    · exact hne rfl
    · revert hid
      revert r
      decide

end RecordQuery
