import Mathlib.Data.List.Nodup
import RecordQuery.Projection
import RecordQuery.Proofs.Expr.Reading
import RecordQuery.Proofs.Expr.Rebinding
import RecordQuery.Proofs.Shape.History

/-!
# The meaning of a projection

A projection computes each of its mappings on its own, whatever shapes its cache made before.

* `Mapping.value` : the value of a mapping at a root value;
* `Projection.compile_eq_ok` : what a successful compilation does, step by step;
* `Projection.fields_eq_of_assemble` : a shape that takes the expressions of a draft as arguments has
  the fields of the draft, if its key is theirs;
* `Projection.compile_meaning` : the fields of the shape, and the instances and errors.
-/

namespace RecordQuery

/-! ## Mappings -/

namespace Mapping

def value (v : Value) : Mapping → Except Error Value
  | .direct _ path => v.readPath path
  | .computed _ l _ => l.invoke v

theorem eval_expr {s : Schema} {root : Param} {m : Mapping} {e : Expr} (h : m.expr s root = .ok e)
    (v : Value) : e.eval root v = m.value v := by
  cases m with
  | direct name path =>
    rw [Expr.eval_resolve_param h]
    rfl
  | computed name l closed =>
    obtain ⟨-, rfl⟩ := ite_ok_eq_ok.1 h
    exact Lambda.eval_applyTo closed root v

end Mapping

/-! ## Instances -/

namespace Shape

theorem indexOf?_name {shape : Shape} (h : Signature.Accepted shape.fields) {i : Nat}
    (hi : i < shape.fields.length) : shape.indexOf? shape.fields[i].name = some i := by
  rw [indexOf?, List.findIdx?_eq_some_iff_getElem]
  refine ⟨hi, beq_self_eq_true _, fun j hji hname => ?_⟩
  have hnodup := (Signature.accepted_iff.1 h).2
  have hi' : i < (shape.fields.map Field.name).length := by rwa [List.length_map]
  have hj' : j < (shape.fields.map Field.name).length := Nat.lt_trans hji hi'
  have hnames : (shape.fields.map Field.name)[j] = (shape.fields.map Field.name)[i] := by
    rw [List.getElem_map, List.getElem_map]
    exact eq_of_beq hname
  have hij : j = i := hnodup.getElem_inj_iff.1 hnames
  omega

/-- The values of an instance are found by the names of the fields. -/
theorem slot?_of_accepted {shape : Shape} {values : List Value}
    (h : Signature.Accepted shape.fields) (hlength : values.length = shape.fields.length) :
    List.Forall₂ (fun name value => Value.slot? shape values name = some value)
      (shape.fields.map Field.name) values := by
  rw [List.forall₂_map_left_iff, List.forall₂_iff_get]
  refine ⟨hlength.symm, fun i hi hi' => ?_⟩
  rw [List.get_eq_getElem, Value.slot?, indexOf?_name h hi, Option.bind_some]
  exact List.getElem?_eq_getElem hi'

end Shape

namespace Projection

/-! ## The steps of a compilation -/

theorem draft_eq_ok {s : Schema} {root : Param} {ms : List Mapping} {exprs : List (String × Expr)} :
    draft s root ms = .ok exprs ↔
      List.Forall₂ (fun m x => m.name = x.1 ∧ m.expr s root = .ok x.2) ms exprs := by
  unfold draft
  rw [mapM_eq_ok]
  have hstep (m : Mapping) (x : String × Expr) :
      (do return (m.name, ← m.expr s root) : Except Error (String × Expr)) = .ok x ↔
        m.name = x.1 ∧ m.expr s root = .ok x.2 := by
    rw [bind_eq_ok]
    constructor
    · rintro ⟨e, he, hx⟩
      cases hx
      exact ⟨rfl, he⟩
    · rintro ⟨hname, he⟩
      exact ⟨x.2, he, by rw [hname]; rfl⟩
  simp only [hstep]

theorem argument_eq_ok {exprs : List (String × Expr)} {f : Field} {e : Expr} :
    argument exprs f = .ok e ↔ exprs.lookup f.name = some e := by
  unfold argument
  cases exprs.lookup f.name <;> simp

theorem forall₂_ty_iff {fields : List Field} {args : List Expr} :
    List.Forall₂ (fun f e => Expr.ty e = Field.ty f) fields args ↔
      args.map Expr.ty = fields.map Field.ty := by
  rw [eq_comm, ← forall₂_map_eq_iff]
  simp only [eq_comm]

/-- An assembled projection gives each field the first expression of its name, which has its type. -/
theorem assemble_eq_ok {root : Param} {shape : Shape} {exprs : List (String × Expr)}
    {p : Projection} :
    assemble root shape exprs = .ok p ↔ ∃ args,
      List.Forall₂ (fun f e => exprs.lookup f.name = some e ∧ e.ty = f.ty) shape.fields args ∧
        p = ⟨⟨root, .construct shape args⟩, shape⟩ := by
  unfold assemble
  simp only [bind_eq_ok, mapM_eq_ok, argument_eq_ok, Expr.mkConstruct_eq_ok, pure_eq_ok,
    Except.ok.injEq, ← forall₂_ty_iff]
  constructor
  · rintro ⟨args, hargs, _, ⟨htys, rfl⟩, rfl⟩
    exact ⟨args, hargs.mp (fun f e hlookup hty => ⟨hlookup, hty⟩) htys, rfl⟩
  · rintro ⟨args, hargs, rfl⟩
    exact ⟨args, hargs.imp fun f e h => h.1, _, ⟨hargs.imp fun f e h => h.2, rfl⟩, rfl⟩

theorem compile_eq_ok {s : Schema} {ms : List Mapping} {root : Param} {cache : String}
    {r r' : Shape.Registry} {p : Projection} :
    compile s ms root cache r = (.ok p, r') ↔ ∃ exprs shape, draft s root ms = .ok exprs ∧
      r.getOrCreate cache (fields exprs) = .ok (shape, r') ∧ assemble root shape exprs = .ok p := by
  unfold compile
  constructor
  · intro h
    split at h
    · cases h
    · rename_i exprs hdraft
      split at h
      · cases h
      · rename_i shape r'' hshape
        obtain ⟨hp, rfl⟩ := Prod.mk.inj h
        exact ⟨exprs, shape, hdraft, hshape, hp⟩
  · rintro ⟨exprs, shape, hdraft, hshape, hp⟩
    simp only [hdraft, hshape, hp]

/-! ## Fields and arguments -/

theorem map_name_fields (exprs : List (String × Expr)) :
    (fields exprs).map Field.name = exprs.map Prod.fst := by
  rw [fields, List.map_map]
  rfl

/-- **A shape that takes the expressions of a draft as its arguments has the fields of the draft, if
the two keys are equal:** each of its fields is one of the draft's. -/
theorem fields_eq_of_assemble {root : Param} {shape : Shape} {exprs : List (String × Expr)}
    {p : Projection} (h : assemble root shape exprs = .ok p)
    (hexprs : Signature.Accepted (fields exprs)) (hshape : Signature.Accepted shape.fields)
    (hkey : Signature.text shape.fields = Signature.text (fields exprs)) :
    shape.fields = fields exprs := by
  obtain ⟨args, hargs, -⟩ := assemble_eq_ok.1 h
  refine hexprs.eq_of_subset hshape (fun f hf => ?_) hkey.symm
  obtain ⟨e, hlookup, hty⟩ := exists_of_forall₂ hargs hf
  obtain ⟨before, after, rfl, -⟩ := List.lookup_eq_some_iff.1 hlookup
  refine List.mem_map.2 ⟨(f.name, e), List.mem_append_right before List.mem_cons_self, ?_⟩
  show (⟨f.name, e.ty⟩ : Field) = f
  rw [hty]

theorem args_eq_of_forall₂ {exprs : List (String × Expr)} {args : List Expr}
    (hexprs : Signature.Accepted (fields exprs))
    (hargs : List.Forall₂ (fun f e => exprs.lookup f.name = some e) (fields exprs) args) :
    args = exprs.map Prod.snd := by
  have hnodup : (exprs.map Prod.fst).Nodup := by
    rw [← map_name_fields]
    exact (Signature.accepted_iff.1 hexprs).2
  rw [fields, List.forall₂_map_left_iff, List.forall₂_iff_get] at hargs
  refine List.ext_get (by rw [List.length_map, hargs.1]) fun i hi hi' => ?_
  rw [List.length_map] at hi'
  have hlookup := hargs.2 i hi' hi
  rw [lookup_of_mem hnodup (List.get_mem exprs ⟨i, hi'⟩)] at hlookup
  rw [← Option.some.inj hlookup, List.get_eq_getElem, List.get_eq_getElem, List.getElem_map]

/-! ## The projection as a whole -/

variable {s : Schema} {ms : List Mapping} {root : Param} {cache : String} {p : Projection}
  {r r' : Shape.Registry}

/-- A compiled projection constructs the shape of its mappings' fields from their expressions. -/
theorem eq_of_compile (hr : r.Sound) (h : compile s ms root cache r = (.ok p, r')) :
    ∃ exprs shape, List.Forall₂ (fun m x => m.name = x.1 ∧ m.expr s root = .ok x.2) ms exprs ∧
      Signature.Accepted (fields exprs) ∧ shape.fields = fields exprs ∧
        p = ⟨⟨root, .construct shape (exprs.map Prod.snd)⟩, shape⟩ := by
  obtain ⟨exprs, shape, hdraft, hshape, hp⟩ := compile_eq_ok.1 h
  have hexprs := (Shape.Registry.getOrCreate_cases hshape).1
  have hfound := Shape.Registry.find?_getOrCreate_self hshape
  have hsound := hr.getOrCreate hshape
  -- The shape may have been made for other fields with the same key; then no arguments fit it.
  have hfields : shape.fields = fields exprs :=
    fields_eq_of_assemble hp hexprs (hsound.accepted hfound) (hsound.key_eq hfound)
  obtain ⟨args, hargs, rfl⟩ := assemble_eq_ok.1 hp
  refine ⟨exprs, shape, draft_eq_ok.1 hdraft, hexprs, hfields, ?_⟩
  rw [hfields] at hargs
  rw [args_eq_of_forall₂ hexprs (hargs.imp fun _ _ h => h.1)]

theorem invoke_construct {shape : Shape} {args : List Expr} (v : Value)
    (hlength : args.length = shape.fields.length) :
    Lambda.invoke ⟨root, .construct shape args⟩ v =
      (args.mapM (Expr.eval root v)).map (.shape shape) := by
  unfold Lambda.invoke
  rw [Expr.eval, Expr.evalAll_eq_mapM]
  cases hvalues : args.mapM (Expr.eval root v) with
  | error e => rfl
  | ok values =>
    have hlength' : values.length = shape.fields.length := by
      rw [← (mapM_eq_ok.1 hvalues).length_eq, hlength]
    rw [ok_bind, Shape.construct, if_pos hlength']
    rfl

theorem invoke_eq_mapM (hr : r.Sound) (h : compile s ms root cache r = (.ok p, r')) (v : Value) :
    p.lambda.invoke v = (ms.mapM (Mapping.value v)).map (.shape p.shape) := by
  obtain ⟨exprs, shape, hexprs, -, hfields, rfl⟩ := eq_of_compile hr h
  have hlength : (exprs.map Prod.snd).length = shape.fields.length := by
    rw [hfields, fields, List.length_map, List.length_map]
  have hvalues : ms.mapM (Mapping.value v) = (exprs.map Prod.snd).mapM (Expr.eval root v) := by
    rw [List.mapM_map]
    exact mapM_eq_of_forall₂ (hexprs.imp fun m x hx => (Mapping.eval_expr hx.2 v).symm)
  rw [hvalues]
  exact invoke_construct v hlength

theorem apply_eq_mapM (hr : r.Sound) (h : compile s ms root cache r = (.ok p, r')) (v : Value) :
    p.apply v = (ms.mapM (Mapping.value v)).map (.shape p.shape) := by
  unfold apply
  rw [invoke_eq_mapM hr h]
  cases ms.mapM (Mapping.value v) <;> rfl

theorem fields_of_compile (hr : r.Sound) (h : compile s ms root cache r = (.ok p, r')) :
    List.Forall₂ (fun m f => f.name = m.name ∧ m.resultTy s root = .ok f.ty) ms p.shape.fields := by
  obtain ⟨exprs, shape, hexprs, -, hfields, rfl⟩ := eq_of_compile hr h
  rw [show Projection.shape ⟨⟨root, .construct shape (exprs.map Prod.snd)⟩, shape⟩ = shape from rfl,
    hfields, fields, List.forall₂_map_right_iff]
  refine hexprs.imp fun m x hx => ⟨hx.1.symm, ?_⟩
  rw [Mapping.resultTy, hx.2]
  rfl

theorem slot?_of_compile (hr : r.Sound) (h : compile s ms root cache r = (.ok p, r'))
    {values : List Value} (hlength : values.length = ms.length) :
    List.Forall₂ (fun m value => Value.slot? p.shape values (Mapping.name m) = some value) ms
      values := by
  have hfields := fields_of_compile hr h
  obtain ⟨exprs, shape, -, haccepted, heq, rfl⟩ := eq_of_compile hr h
  have hnames : ms.map Mapping.name = shape.fields.map Field.name := by
    rw [← List.forall₂_eq_eq_eq, List.forall₂_map_left_iff, List.forall₂_map_right_iff]
    exact hfields.imp fun m f hf => hf.1.symm
  have hslots := Shape.slot?_of_accepted (heq ▸ haccepted) (hlength.trans hfields.length_eq)
  rw [← hnames, List.forall₂_map_left_iff] at hslots
  exact hslots

/-- **A projection computes its mappings one by one.** Whatever was asked of the caches before, its
shape has one field for each mapping, of the mapping's name and of the type of its expression. Its
instance for a root value holds the value that each mapping has on its own, by position and by name;
there is none exactly if a mapping fails, and then the error is the one of the first that does. -/
theorem compile_meaning {qs : List Shape.Registry.Request}
    (h : compile s ms root cache (.after qs) = (.ok p, r')) :
    List.Forall₂ (fun m f => f.name = m.name ∧ m.resultTy s root = .ok f.ty) ms p.shape.fields ∧
    ∀ v,
      (∀ w, p.apply v = .ok w ↔ ∃ values, w = .shape p.shape values ∧
        List.Forall₂ (fun m value => m.value v = .ok value ∧
          Value.slot? p.shape values m.name = some value) ms values) ∧
      ∀ err, p.apply v = .error err ↔ ∃ before m rest, ms = before ++ m :: rest ∧
        (∀ m' ∈ before, ∃ value, m'.value v = .ok value) ∧ m.value v = .error err := by
  have hr := Shape.Registry.sound_after qs
  refine ⟨fields_of_compile hr h, fun v => ⟨fun w => ?_, fun err => ?_⟩⟩
  · rw [apply_eq_mapM hr h]
    constructor
    · intro hw
      cases hvalues : ms.mapM (Mapping.value v) with
      | error e =>
        rw [hvalues] at hw
        cases hw
      | ok values =>
        rw [hvalues] at hw
        have hms := mapM_eq_ok.1 hvalues
        refine ⟨values, (Except.ok.inj hw).symm, ?_⟩
        exact hms.mp (fun m value hvalue hslot => ⟨hvalue, hslot⟩)
          (slot?_of_compile hr h hms.length_eq.symm)
    · rintro ⟨values, rfl, hvalues⟩
      rw [mapM_eq_ok.2 (hvalues.imp fun m value hm => hm.1)]
      rfl
  · rw [apply_eq_mapM hr h, ← mapM_eq_error]
    cases ms.mapM (Mapping.value v) <;> simp [Except.map]

/-! ## A projection of persons -/

def visitor : Param := ⟨2, "root", .record "Person"⟩

/-- The age of a person's sponsor, copied, and the person's own, computed. -/
def agesOf : List Mapping :=
  [.direct "sponsor" "Card.Owner.Age", .computed "own" ageIfGrown ageIfGrown_closed]

/-- A cache in which the shape is found, after another one. -/
def requests : List Shape.Registry.Request :=
  [⟨"people", [⟨"own", .int⟩]⟩, ⟨"people", [⟨"sponsor", .nullable .int⟩, ⟨"own", .int⟩]⟩]

def ages : Shape := ⟨2, [⟨"sponsor", .nullable .int⟩, ⟨"own", .int⟩]⟩

def agesProjection : Projection :=
  ⟨⟨visitor, .construct ages
    [.field (.field (.field (.param visitor) "Card" (.nullable (.record "Card"))) "Owner"
      (.record "Person")) "Age" (.nullable .int), ageIfGrown.applyTo visitor]⟩, ages⟩

/-- The guest has no age, so the second mapping fails. -/
theorem agesProjection_guest :
    ∃ r', compile people agesOf visitor "people" (.after requests) = (.ok agesProjection, r') ∧
      List.Forall₂ (fun m f => f.name = m.name ∧ m.resultTy people visitor = .ok f.ty) agesOf
        agesProjection.shape.fields ∧
      agesProjection.apply guest = .error (.evaluation (.nullConversion "int")) := by
  obtain ⟨r', h⟩ : ∃ r', compile people agesOf visitor "people" (.after requests) =
      (.ok agesProjection, r') := ⟨_, rfl⟩
  obtain ⟨hfields, hvalues⟩ := compile_meaning h
  refine ⟨r', h, hfields, ((hvalues guest).2 _).2 ⟨[agesOf[0]], agesOf[1], [], rfl, ?_, rfl⟩⟩
  intro m hm
  rw [List.mem_singleton.1 hm]
  exact ⟨.int 30, rfl⟩

end Projection

end RecordQuery
