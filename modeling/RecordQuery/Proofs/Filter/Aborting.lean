import RecordQuery.Filter.Compile
import RecordQuery.Proofs.Value.Aborting

/-!
# Filters that abort a run

Compiling a filter aborts only for a value past the calendar: the other steps refuse what they do not take.

* `Expr.resolve_abortsOnlyIf` and its neighbours : paths and nodes never abort;
* `Filter.predicate_abortsOnlyIf` : the predicate of a descriptor;
* `Filter.compile_abortsOnlyIf`, `Filter.compileText_abortsOnlyIf` : lists of descriptors, and text filters.
-/

namespace RecordQuery

theorem AbortsOnlyIf.ite {α : Type} {P c : Prop} [Decidable c] {a : α} {e : Error}
    (h : e ≠ .beyondCalendar) : AbortsOnlyIf P (if c then .ok a else .error e) := by
  split
  · exact .ok a
  · exact .of_ne h

/-! ## Nodes and paths -/

namespace Expr
variable {P : Prop}

theorem mkLiteral_abortsOnlyIf (v : Value) (ty : Ty) : AbortsOnlyIf P (mkLiteral v ty) :=
  .ite (by simp)

theorem mkBinary_abortsOnlyIf (op : BinaryOp) (left right : Expr) :
    AbortsOnlyIf P (mkBinary op left right) := .ite (by simp)

theorem mkNot_abortsOnlyIf (operand : Expr) : AbortsOnlyIf P (mkNot operand) :=
  .ite (by simp)

theorem mkConvert_abortsOnlyIf (operand : Expr) (ty : Ty) : AbortsOnlyIf P (mkConvert operand ty) :=
  .ite (by simp)

theorem mkCall_abortsOnlyIf (m : Method) (target : Expr) (args : List Expr) :
    AbortsOnlyIf P (mkCall m target args) := .ite (by simp)

theorem fold_abortsOnlyIf (op : BinaryOp) (es : List Expr) : AbortsOnlyIf P (fold op es) := by
  cases es with
  | nil => exact .ok none
  | cons e es => exact .map (.foldlM (fun left right _ => mkBinary_abortsOnlyIf op left right) e) some

theorem readSegment_abortsOnlyIf (s : Schema) (path : String) (e : Expr) (segment : String) :
    AbortsOnlyIf P (readSegment s path e segment) := by
  unfold readSegment
  dsimp only
  split
  · exact .of_ne (by simp)
  · split
    · exact .of_ne (by simp)
    · refine (s.record_abortsOnlyIf _).bind fun r _ => ?_
      split
      · exact .of_ne (by simp)
      · exact .ok _

theorem resolve_abortsOnlyIf (s : Schema) (root : Expr) (path : String) :
    AbortsOnlyIf P (resolve s root path) :=
  .foldlM (fun e segment _ => readSegment_abortsOnlyIf s path e segment) root

end Expr

/-! ## Filters -/

namespace Filter
open RecordQuery.Expr

def HasPast (value : Option String) : Prop := ∃ raw, value = some raw ∧ PastCalendar raw

variable (s : Schema) (property : Expr) (value : Option String)

theorem constant_abortsOnlyIf (ty : Ty) : AbortsOnlyIf (HasPast value) (constant s value ty) := by
  have hliteral (v : Value) : AbortsOnlyIf (HasPast value)
      (if ty.isNullable then mkLiteral v ty.underlying >>= fun l => mkConvert l ty
      else mkLiteral v ty) := by
    split
    · exact (mkLiteral_abortsOnlyIf v _).bind fun l _ => mkConvert_abortsOnlyIf l ty
    · exact mkLiteral_abortsOnlyIf v ty
  cases value with
  | some raw =>
    refine .bind ?_ fun v _ => hliteral v
    exact (Value.read_abortsOnlyIf s raw ty).mono fun h => ⟨raw, rfl, h⟩
  | none => exact hliteral .null

theorem comparison_abortsOnlyIf (op : BinaryOp) :
    AbortsOnlyIf (HasPast value) (comparison s op property value) :=
  (constant_abortsOnlyIf s value _).bind fun c _ => mkBinary_abortsOnlyIf op property c

theorem textMatch_abortsOnlyIf (m : Method) :
    AbortsOnlyIf (HasPast value) (textMatch s m property value) := by
  refine (constant_abortsOnlyIf s value _).bind fun c _ => ?_
  split
  · exact mkCall_abortsOnlyIf m property [c]
  split
  · exact .of_ne (by simp)
  · refine (mkCall_abortsOnlyIf .toText property []).bind fun target _ => ?_
    exact (mkCall_abortsOnlyIf .toText c []).bind fun needle _ => mkCall_abortsOnlyIf m target [needle]

theorem emptiness_abortsOnlyIf : AbortsOnlyIf (HasPast value) (emptiness s property value) := by
  unfold emptiness
  dsimp only
  split
  · refine (mkBinary_abortsOnlyIf _ _ _).bind fun isNull _ => ?_
    refine (mkLiteral_abortsOnlyIf _ _).bind fun blank _ => ?_
    exact (mkBinary_abortsOnlyIf _ _ _).bind fun isBlank _ => mkBinary_abortsOnlyIf .or isNull isBlank
  · exact comparison_abortsOnlyIf s property value .equal

/-- The tokens of a list never abort: no identifier, constant or text is a moment. -/
theorem membership_abortsOnlyIf {P : Prop} (separator : String) :
    AbortsOnlyIf P (membership s separator property value) := by
  unfold membership
  dsimp only
  split
  · split
    · refine .bind (.mapM fun token _ => ?_) fun tests _ => ?_
      · refine .bind (fun h => ?_) fun v _ => ?_
        · cases (Value.read_aborts_iff.1 h).1
        · exact (mkLiteral_abortsOnlyIf v .uuid).bind fun l _ => mkBinary_abortsOnlyIf .equal l property
      · exact (fold_abortsOnlyIf .or tests).bind fun e _ => .ok _
    · refine .bind (.mapM fun token _ => Constant.read_abortsOnlyIf s _ token) fun constants _ => ?_
      exact (mkLiteral_abortsOnlyIf _ _).bind fun list _ => mkCall_abortsOnlyIf _ _ _
    · refine (mkLiteral_abortsOnlyIf _ _).bind fun list _ => ?_
      split
      · exact mkCall_abortsOnlyIf _ _ _
      · exact (mkCall_abortsOnlyIf _ _ _).bind fun needle _ => mkCall_abortsOnlyIf _ _ _
  · exact .of_ne (by simp)

/-- **The predicate of a filter aborts only for a value past the calendar.** -/
theorem predicate_abortsOnlyIf (separator : String) (root : Param) (d : Descriptor) :
    AbortsOnlyIf (HasPast d.value) (predicate s separator root d) := by
  refine (resolve_abortsOnlyIf s _ _).bind fun property _ => ?_
  cases d.operator with
  | none => exact .of_ne (by simp)
  | equal | notEqual | less | lessOrEqual | greater | greaterOrEqual =>
    exact comparison_abortsOnlyIf s property d.value _
  | startsWith | contains => exact textMatch_abortsOnlyIf s property d.value _
  | oneOf => exact membership_abortsOnlyIf s property d.value separator
  | isEmpty => exact emptiness_abortsOnlyIf s property d.value
  | isNotEmpty =>
    exact (emptiness_abortsOnlyIf s property d.value).bind fun e _ => mkNot_abortsOnlyIf e

/-- **A list of filters aborts only for a value past the calendar in it.** -/
theorem compile_abortsOnlyIf (o : Options) (id : Nat) (root : Ty) (ds : List Descriptor) :
    AbortsOnlyIf (∃ d ∈ ds, HasPast d.value) (compile s o id root ds) := by
  refine .bind (.mapM fun d hd => ?_) fun es _ => (fold_abortsOnlyIf .and es).bind fun e _ => .ok _
  have hmem : d ∈ ds := (List.mem_filter.1 hd).1
  exact (predicate_abortsOnlyIf s _ _ d).mono fun h => ⟨d, hmem, h⟩

/-- Text filters never abort. -/
theorem compileText_abortsOnlyIf {P : Prop} (o : Options) (id : Nat) (root : Ty) (path text : String) :
    AbortsOnlyIf P (compileText s o id root path text) := by
  refine .bind ?_ fun e _ => .ok _
  unfold textPredicate
  dsimp only
  split
  · exact .ok _
  · refine (resolve_abortsOnlyIf s _ _).bind fun property _ => ?_
    refine .bind (.mapM fun pattern _ => mkCall_abortsOnlyIf _ _ _) fun tests _ => ?_
    exact (fold_abortsOnlyIf .or tests).bind fun e _ => .ok _

end Filter

end RecordQuery
