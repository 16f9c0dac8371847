import RecordQuery.Proofs.Expr.Alike
import RecordQuery.Proofs.Filter.Conjunction

/-!
# The root parameter of a filter

Two compilations of a filter differ in the number and the name of the root parameter only, so they are
refused with one error, or give functions with the same answers.

* `Filter.matches_predicate` : the predicates of a descriptor over two root parameters are alike;
* `Filter.matches_textPredicate` : the tests of a text filter;
* `Filter.matches_compile`, `Filter.matches_compileText` : two compilations of a list of filters, and of a text
  filter;
* `Filter.valueOn_eq` : the value of a filter on a row.
-/

namespace RecordQuery

namespace Filter
open RecordQuery.Expr

variable {s : Schema} {p q : Param} {property property' : Expr} {raw : Option String}

/-! ## Descriptors -/

theorem matches_constant (s : Schema) (p q : Param) (raw : Option String) (ty : Ty) :
    Matches (Alike p q) (constant s raw ty) (constant s raw ty) := by
  cases h : constant s raw ty with
  | error err => exact .error err
  | ok e =>
    obtain ⟨c, -, rfl⟩ := of_constant_eq_ok h
    exact .ok ⟨rfl, fun arg => by rw [eval_constantExpr, eval_constantExpr]⟩

theorem matches_comparison {op : BinaryOp} (h : Alike p q property property') :
    Matches (Alike p q) (comparison s op property raw) (comparison s op property' raw) := by
  unfold comparison
  rw [h.ty]
  exact (matches_constant s p q raw property.ty).bind fun c c' hc => h.mkBinary hc

theorem matches_textMatch {m : Method} (h : Alike p q property property') :
    Matches (Alike p q) (textMatch s m property raw) (textMatch s m property' raw) := by
  unfold textMatch
  rw [h.ty]
  refine (matches_constant s p q raw property.ty).bind fun c c' hc => ?_
  split
  · exact h.mkCall (.cons hc .nil)
  · split
    · exact .error _
    · refine (h.mkCall .nil).bind fun target target' htarget => ?_
      exact (hc.mkCall .nil).bind fun arg arg' harg => htarget.mkCall (.cons harg .nil)

theorem matches_emptiness (h : Alike p q property property') :
    Matches (Alike p q) (emptiness s property raw) (emptiness s property' raw) := by
  unfold emptiness
  rw [h.ty]
  dsimp only
  split
  · refine (h.mkBinary (.literal p q .null property.ty)).bind fun isNull isNull' hnull => ?_
    refine (Alike.mkLiteral p q _ _).bind fun blank blank' hblank => ?_
    exact (h.mkBinary hblank).bind fun isBlank isBlank' hisBlank => hnull.mkBinary hisBlank
  · exact matches_comparison h

theorem matches_membership {separator : String} (h : Alike p q property property') :
    Matches (Alike p q) (membership s separator property raw)
      (membership s separator property' raw) := by
  unfold membership
  rw [h.ty]
  cases raw with
  | none => exact .error _
  | some raw =>
    dsimp only
    split
    · refine (Matches.mapM (R := Alike p q) fun token _ => ?_).bind fun tests tests' htests => ?_
      · cases Value.read s token .uuid with
        | error err => exact .error err
        | ok u => exact (Alike.mkLiteral p q u .uuid).bind fun c c' hc => hc.mkBinary h
      · exact (Alike.fold htests).bind fun x x' hx => .ok (.getD hx _ _)
    · rename_i name _
      cases (Text.split raw separator).mapM (Constant.read s name) with
      | error err => exact .error err
      | ok constants =>
        exact (Alike.mkLiteral p q _ _).bind fun c c' hc => hc.mkCall (.cons h .nil)
    · refine (Alike.mkLiteral p q _ _).bind fun c c' hc => ?_
      split
      · exact hc.mkCall (.cons h .nil)
      · exact (h.mkCall .nil).bind fun t t' ht => hc.mkCall (.cons ht .nil)

/-- The predicates of a descriptor over two root parameters of one type are alike. -/
theorem matches_predicate (s : Schema) (separator : String) (hty : q.ty = p.ty) (d : Descriptor) :
    Matches (Alike p q) (predicate s separator p d) (predicate s separator q d) := by
  unfold predicate
  refine (Alike.param hty).resolve.bind fun property property' h => ?_
  cases d.operator with
  | none => exact .error _
  | equal | notEqual | less | lessOrEqual | greater | greaterOrEqual => exact matches_comparison h
  | startsWith | contains => exact matches_textMatch h
  | oneOf => exact matches_membership h
  | isEmpty => exact matches_emptiness h
  | isNotEmpty => exact (matches_emptiness h).bind fun e e' he => he.mkNot

theorem matches_textPredicate (s : Schema) (hty : q.ty = p.ty) (path text : String) :
    Matches (Alike p q) (textPredicate s p path text) (textPredicate s q path text) := by
  unfold textPredicate
  dsimp only
  split
  · exact .ok (.literal p q _ _)
  · refine (Alike.param hty).resolve.bind fun property property' h => ?_
    refine (Matches.mapM (R := Alike p q) fun pattern _ => ?_).bind fun tests tests' htests => ?_
    · exact h.mkCall (.cons (.literal p q _ _) .nil)
    · exact (Alike.fold htests).bind fun x x' hx => .ok (.getD hx _ _)

/-! ## Lists of filters -/

variable {o o' : Options} {i j : Nat} {root : Ty}

theorem matches_compile (s : Schema) (ho : o'.separator = o.separator) (i j : Nat) (root : Ty)
    (ds : List Descriptor) : Matches (fun l l' : Lambda => ∀ row, l'.invoke row = l.invoke row)
      (compile s o i root ds) (compile s o' j root ds) := by
  have hty : (rootParam o' j root).ty = (rootParam o i root).ty := rfl
  unfold compile
  dsimp only
  rw [ho]
  refine (Matches.mapM fun d _ => matches_predicate s o.separator hty d).bind fun es es' hes => ?_
  exact (Alike.fold hes).bind fun x x' hx => .ok (Alike.getD hx _ _).eval

theorem matches_compileText (s : Schema) (o o' : Options) (i j : Nat) (root : Ty) (property text : String) :
    Matches (fun l l' : Lambda => ∀ row, l'.invoke row = l.invoke row)
      (compileText s o i root property text) (compileText s o' j root property text) := by
  have hty : (rootParam o' j root).ty = (rootParam o i root).ty := rfl
  exact (matches_textPredicate s hty property text).bind fun e e' he => .ok he.eval

/-- The value of a filter on a row does not depend on the number of the root parameter. -/
theorem valueOn_eq (s : Schema) (o : Options) (i j : Nat) (root : Ty) (row : Value) (d : Descriptor) :
    valueOn s o (rootParam o j root) row d = valueOn s o (rootParam o i root) row d := by
  have hty : (rootParam o j root).ty = (rootParam o i root).ty := rfl
  have hmatch := matches_predicate s o.separator hty d
  unfold valueOn
  generalize predicate s o.separator (rootParam o i root) d = x at hmatch
  generalize predicate s o.separator (rootParam o j root) d = y at hmatch
  cases hmatch with
  | ok h => exact h.eval row
  | error err => rfl

end Filter

end RecordQuery
