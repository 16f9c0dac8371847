import RecordQuery.Proofs.Expr.Paths
import RecordQuery.Proofs.Projection.Meaning

/-!
# What a projection reads

A projection reads what its mappings read, and nothing else of its root value.

* `Mapping.paths` : the paths that a mapping reads;
* `Mapping.params_expr`, `Mapping.readPaths_expr` : the expression of a mapping is over the root
  parameter, and reads the mapping's paths on it;
* `Projection.memberPaths_compile` : the free parameters and the paths of the function of a
  projection.
-/

namespace RecordQuery

variable {s : Schema} {ms : List Mapping} {root : Param}

namespace Mapping

def paths : Mapping → List String
  | .direct _ path => [path]
  | .computed _ l _ => l.memberPaths

variable {m : Mapping} {e : Expr}

theorem params_expr (h : m.expr s root = .ok e) : ∀ q ∈ e.params, q = root := by
  cases m with
  | direct name path =>
    rw [Expr.params_resolve h]
    intro q hq
    exact List.mem_singleton.1 hq
  | computed name l closed =>
    obtain ⟨-, rfl⟩ := ite_ok_eq_ok.1 h
    intro q hq
    rw [Lambda.applyTo, Expr.params_rebind, List.mem_flatMap] at hq
    obtain ⟨q', hq', hq⟩ := hq
    rw [if_pos (closed.id_eq hq')] at hq
    exact List.mem_singleton.1 hq

theorem readPaths_expr (h : m.expr s root = .ok e) {path : String} :
    path ∈ e.readPaths root ↔ path ∈ m.paths := by
  cases m with
  | direct name path' => rw [Expr.readPaths_of_chain (Expr.chain?_resolve h), paths]
  | computed name l closed =>
    obtain ⟨-, rfl⟩ := ite_ok_eq_ok.1 h
    have hreads : (l.applyTo root).readPaths root = l.body.readPaths l.param :=
      Expr.readPaths_rebind fun q hq => closed.id_eq hq
    rw [hreads, paths, Lambda.memberPaths, Expr.mem_memberPaths]

end Mapping

namespace Projection

variable {p : Projection} {r' : Shape.Registry} {cache : String}

/-- **A projection reads exactly what its mappings read.** Whatever was asked of the caches before, its
function is one of the root parameter, and its body has no other free parameter. The paths that the
body reads on the root are those of the direct mappings and those that the computed ones read on
their own parameters. -/
theorem memberPaths_compile {qs : List Shape.Registry.Request}
    (h : compile s ms root cache (.after qs) = (.ok p, r')) :
    p.lambda.param = root ∧ (p.lambda.body.freeParams = [] ∨ p.lambda.body.freeParams = [root]) ∧
      ∀ path, path ∈ p.lambda.body.memberPaths root ↔ ∃ m ∈ ms, path ∈ m.paths := by
  obtain ⟨exprs, shape, hexprs, -, -, rfl⟩ := eq_of_compile (Shape.Registry.sound_after qs) h
  refine ⟨rfl, Expr.freeParams_of_eq ?_, fun path => ?_⟩
  · show ∀ q ∈ Expr.paramsAll (exprs.map Prod.snd), q = root
    rw [Expr.forall_mem_paramsAll]
    intro e he
    obtain ⟨x, hx, rfl⟩ := List.mem_map.1 he
    obtain ⟨m, -, -, hm⟩ := exists_mem_of_forall₂ hexprs.flip hx
    exact Mapping.params_expr hm
  · show path ∈ Expr.memberPaths root (.construct shape (exprs.map Prod.snd)) ↔ _
    rw [Expr.mem_memberPaths, Expr.readPaths, Expr.readPathsAll_eq_flatMap, List.mem_flatMap]
    constructor
    · rintro ⟨e, he, hpath⟩
      obtain ⟨x, hx, rfl⟩ := List.mem_map.1 he
      obtain ⟨m, hm, -, hexpr⟩ := exists_mem_of_forall₂ hexprs.flip hx
      exact ⟨m, hm, (Mapping.readPaths_expr hexpr).1 hpath⟩
    · rintro ⟨m, hm, hpath⟩
      obtain ⟨x, hx, -, hexpr⟩ := exists_mem_of_forall₂ hexprs hm
      exact ⟨x.2, List.mem_map_of_mem hx, (Mapping.readPaths_expr hexpr).2 hpath⟩

/-- Of the persons only their own age and the sponsor's are read; the computed mapping reads both. -/
theorem agesProjection_reads :
    ∃ r', compile people agesOf visitor "people" (.after requests) = (.ok agesProjection, r') ∧
      agesProjection.lambda.body.freeParams = [visitor] ∧
      ∀ path, path ∈ agesProjection.lambda.body.memberPaths visitor ↔
        path ∈ ["Age", "Card.Owner.Age"] := by
  obtain ⟨r', h⟩ : ∃ r', compile people agesOf visitor "people" (.after requests) =
      (.ok agesProjection, r') := ⟨_, rfl⟩
  obtain ⟨-, hfree, hpaths⟩ := memberPaths_compile h
  have hdirect : Mapping.paths agesOf[0] = ["Card.Owner.Age"] := rfl
  have hcomputed : Mapping.paths agesOf[1] = ["Age", "Card.Owner.Age"] := rfl
  refine ⟨r', h, hfree.resolve_left (by decide), fun path => ?_⟩
  rw [hpaths, show agesOf = [agesOf[0], agesOf[1]] from rfl]
  simp only [List.mem_cons, List.not_mem_nil, or_false, exists_eq_or_imp, exists_eq_left, hdirect,
    hcomputed]
  tauto

end Projection

end RecordQuery
