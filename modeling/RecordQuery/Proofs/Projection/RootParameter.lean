import RecordQuery.Proofs.Expr.Rebinding
import RecordQuery.Proofs.Filter.RootParameter
import RecordQuery.Proofs.Projection.Meaning

/-!
# The root parameter of a projection

The number and the name of the root parameter do not matter to a projection either: a computed field is
rebound to the root by the number of its own parameter, and nothing is found by its name.

* `Lambda.IsClosed.alike` : a closed function over two parameters;
* `Mapping.matches_expr`, `Projection.matches_draft` : mappings over two root parameters;
* `Projection.SameInstances` : projections that differ in their written form only;
* `Projection.matches_assemble` : projections that are assembled from drafts that are alike;
* `Projection.matches_compile` : two compilations of a list of mappings;
* `Options.rootNames_irrelevant` : all three compilers, for options that name the root parameters differently.
-/

namespace RecordQuery

open RecordQuery.Expr (Alike)

variable {s : Schema} {x y : Param}

/-! ## Mappings -/

/-- An expression that is a reference to the parameter has the type of the image; no other type changes. -/
theorem Expr.ty_rebind_param (p : Param) (hty : y.ty = x.ty) (e : Expr) :
    (rebind p (.param y) e).ty = (rebind p (.param x) e).ty := by
  cases e with
  | param q =>
    rw [rebind, rebind]
    split
    · exact hty
    · rfl
  | call m target args => cases m <;> rfl
  | _ => rfl

theorem Lambda.IsClosed.alike {l : Lambda} (h : l.IsClosed) (hty : y.ty = x.ty) :
    Alike x y (l.applyTo x) (l.applyTo y) := by
  refine ⟨Expr.ty_rebind_param l.param hty l.body, fun v => ?_⟩
  rw [Lambda.eval_applyTo h, Lambda.eval_applyTo h]

theorem Mapping.matches_expr (s : Schema) (hty : y.ty = x.ty) (m : Mapping) :
    Matches (Alike x y) (m.expr s x) (m.expr s y) := by
  cases m with
  | direct name path => exact (Alike.param hty).resolve
  | computed name l closed =>
    rw [expr, expr, hty]
    split
    · exact .ok (closed.alike hty)
    · exact .error _

namespace Projection

/-! ## Drafts -/

/-- The drafts have the same names, and expressions that are alike. -/
def DraftsAlike (x y : Param) : List (String × Expr) → List (String × Expr) → Prop :=
  List.Forall₂ fun a b => b.1 = a.1 ∧ Alike x y a.2 b.2

variable {exprs exprs' : List (String × Expr)}

theorem matches_draft (s : Schema) (hty : y.ty = x.ty) (ms : List Mapping) :
    Matches (DraftsAlike x y) (draft s x ms) (draft s y ms) :=
  Matches.mapM fun m _ => (m.matches_expr s hty).bind fun _ _ h => .ok ⟨rfl, h⟩

theorem DraftsAlike.fields_eq (h : DraftsAlike x y exprs exprs') : fields exprs' = fields exprs := by
  unfold fields
  refine (forall₂_map_eq_iff.1 (h.imp fun a b hab => ?_)).symm
  show (⟨a.1, a.2.ty⟩ : Field) = ⟨b.1, b.2.ty⟩
  rw [hab.1, hab.2.ty]

theorem DraftsAlike.matches_argument (h : DraftsAlike x y exprs exprs') (f : Field) :
    Matches (Alike x y) (argument exprs f) (argument exprs' f) := by
  induction h with
  | nil => exact .error _
  | @cons a b exprs exprs' hab _ ih =>
    obtain ⟨name, e⟩ := a
    obtain ⟨name', e'⟩ := b
    obtain ⟨hname : name' = name, he⟩ := hab
    subst hname
    unfold argument at ih ⊢
    rw [List.lookup_cons, List.lookup_cons]
    cases f.name == name' with
    | true => exact .ok he
    | false => exact ih

/-! ## Compilations -/

/-- The projections make instances of one shape, and the same instance for each root value. -/
structure SameInstances (p q : Projection) : Prop where
  shape : q.shape = p.shape
  invoke (row : Value) : q.lambda.invoke row = p.lambda.invoke row

theorem SameInstances.apply {p q : Projection} (h : SameInstances p q) (row : Value) :
    q.apply row = p.apply row := by
  rw [Projection.apply, Projection.apply, h.invoke]

theorem matches_assemble (shape : Shape) (h : DraftsAlike x y exprs exprs') :
    Matches SameInstances (assemble x shape exprs) (assemble y shape exprs') := by
  unfold assemble
  refine (Matches.mapM fun f _ => h.matches_argument f).bind fun args args' hargs => ?_
  exact (Alike.mkConstruct shape hargs).bind fun e e' he => .ok ⟨rfl, he.eval⟩

/-- Compilations over two root parameters of one type: they also use the caches in the same way. -/
theorem matches_compile (s : Schema) (hty : y.ty = x.ty) (ms : List Mapping) (cache : String)
    (r : Shape.Registry) :
    Matches SameInstances (compile s ms x cache r).1 (compile s ms y cache r).1 ∧
      (compile s ms y cache r).2 = (compile s ms x cache r).2 := by
  have hdraft := matches_draft s hty ms
  unfold compile
  generalize draft s x ms = drafted at hdraft
  generalize draft s y ms = drafted' at hdraft
  cases hdraft with
  | error err => exact ⟨.error err, rfl⟩
  | @ok exprs exprs' h =>
    dsimp only
    rw [h.fields_eq]
    cases r.getOrCreate cache (fields exprs) with
    | error err => exact ⟨.error err, rfl⟩
    | ok found => exact ⟨matches_assemble found.1 h, rfl⟩

end Projection

/-! ## Options -/

def Lambda.SameAnswers (l l' : Lambda) : Prop :=
  ∀ row, l'.invoke row = l.invoke row ∧ l'.test row = l.test row

theorem Lambda.sameAnswers_iff {l l' : Lambda} :
    l.SameAnswers l' ↔ ∀ row, l'.invoke row = l.invoke row := by
  refine ⟨fun h row => (h row).1, fun h row => ⟨h row, ?_⟩⟩
  rw [Lambda.test, Lambda.test, h row]

/-- Options that differ in the names of the root parameters only: each compiler refuses with one error, or makes
functions with the same values and errors on every row, whatever the parameters of computed fields are called.
The projections are of one shape, and leave the caches alike. -/
theorem Options.rootNames_irrelevant (s : Schema) {o o' : Options} (h : o'.separator = o.separator) (i j : Nat)
    (root : Ty) :
    (∀ ds, Matches Lambda.SameAnswers (Filter.compile s o i root ds) (Filter.compile s o' j root ds)) ∧
    (∀ property text, Matches Lambda.SameAnswers (Filter.compileText s o i root property text)
      (Filter.compileText s o' j root property text)) ∧
    ∀ ms cache r,
      Matches (fun p p' => p'.shape = p.shape ∧ p.lambda.SameAnswers p'.lambda ∧ ∀ row, p'.apply row = p.apply row)
        (Projection.compile s ms (Projection.rootParam o i root) cache r).1
        (Projection.compile s ms (Projection.rootParam o' j root) cache r).1 ∧
      (Projection.compile s ms (Projection.rootParam o' j root) cache r).2 =
        (Projection.compile s ms (Projection.rootParam o i root) cache r).2 := by
  refine ⟨fun ds => ?_, fun property text => ?_, fun ms cache r => ?_⟩
  · exact (Filter.matches_compile s h i j root ds).mono fun l l' => Lambda.sameAnswers_iff.2
  · exact (Filter.matches_compileText s o o' i j root property text).mono fun l l' => Lambda.sameAnswers_iff.2
  · have hty : (Projection.rootParam o' j root).ty = (Projection.rootParam o i root).ty := rfl
    obtain ⟨hmatch, hcaches⟩ := Projection.matches_compile s hty ms cache r
    refine ⟨hmatch.mono fun p p' hp => ?_, hcaches⟩
    exact ⟨hp.shape, Lambda.sameAnswers_iff.2 hp.invoke, hp.apply⟩

/-- The computed field has a parameter of the default name; under another name the instances are the same. -/
theorem Options.rootNames_irrelevant_row :
    ({} : Options).separator = (⟨"row", "card", ","⟩ : Options).separator ∧
    ageIfGrown.param.name = ({} : Options).projectionRoot ∧ ∃ p p',
      (Projection.compile people Projection.agesOf
        (Projection.rootParam ⟨"row", "card", ","⟩ 2 (.record "Person")) "people" .empty).1 = .ok p ∧
      (Projection.compile people Projection.agesOf
        (Projection.rootParam {} 3 (.record "Person")) "people" .empty).1 = .ok p' ∧
      ∀ row, p'.apply row = p.apply row := by
  have h : ({} : Options).separator = (⟨"row", "card", ","⟩ : Options).separator := rfl
  obtain ⟨-, -, hprojections⟩ := Options.rootNames_irrelevant people h 2 3 (.record "Person")
  obtain ⟨p, hp⟩ : ∃ p, (Projection.compile people Projection.agesOf
      (Projection.rootParam ⟨"row", "card", ","⟩ 2 (.record "Person")) "people" .empty).1 = .ok p := ⟨_, rfl⟩
  obtain ⟨p', hp', -, -, happly⟩ := (hprojections Projection.agesOf "people" .empty).1.exists_eq_ok hp
  exact ⟨h, rfl, p, p', hp, hp', happly⟩

end RecordQuery
