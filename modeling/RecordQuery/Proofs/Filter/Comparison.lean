import RecordQuery.Proofs.Filter.Emptiness
import RecordQuery.Proofs.Filter.Progress
import RecordQuery.Proofs.Filter.Settlement
import RecordQuery.Proofs.Value.Order

/-!
# Filters that compare

The six comparisons of a property with one value are consistent: they find rows by one order of values,
in which only equal values have the same place.

* `BinaryOp.compare_null`, `BinaryOp.compare_ordered` : what an order asks of two values;
* `Filter.answer` : the answer of one filter on a row;
* `exists_compile_comparison_iff` : which of the comparisons compile;
* `answer_comparison` : a comparison answers for the value of its path and the constant;
* `Ordered`, `Consistent` : the answers of the six comparisons for a value and a constant;
* `comparisons_consistent` : they are consistent once one of them compiles.
-/

namespace RecordQuery

/-! ## Orders of two values -/

variable {v w c : Value}

theorem BinaryOp.compare_null {op : BinaryOp} (hop : op.IsOrdering) (h : v = .null ∨ w = .null) :
    op.compare v w = .ok (.bool false) := by
  have hnull : (v.isNull || w.isNull) = true := by
    rcases h with rfl | rfl
    · rfl
    · exact Bool.or_true _
  unfold compare
  rcases hop with rfl | rfl | rfl | rfl <;> exact if_pos hnull

theorem Value.isNull_eq_false (h : v ≠ .null) : v.isNull = false := by
  cases v with
  | null => contradiction
  | _ => rfl

theorem BinaryOp.compare_ordered {op : BinaryOp} {o : Ordering} (hop : op.IsOrdering) (hv : v ≠ .null)
    (hw : w ≠ .null) (ho : v.compare w = some o) : op.compare v w = .ok (.bool (op.admits o)) := by
  have hnull : ¬(v.isNull || w.isNull) = true := by
    rw [Value.isNull_eq_false hv, Value.isNull_eq_false hw]
    simp
  unfold compare
  rw [ho]
  rcases hop with rfl | rfl | rfl | rfl <;> exact if_neg hnull

namespace Filter
open RecordQuery.Expr

theorem Operator.isOrdering_of_orders {op : Operator} {bop : BinaryOp} (hop : op.comparison? = some bop)
    (h : op.Orders = true) : bop.IsOrdering := by
  unfold BinaryOp.IsOrdering
  cases op <;> cases hop <;> simp [Operator.Orders] at h ⊢

theorem Operator.comparison_of_orders {op : Operator} (h : op.Orders = true) :
    ∃ bop, op.comparison? = some bop := by
  cases op <;> first | exact ⟨_, rfl⟩ | cases h

/-! ## One filter -/

variable {s : Schema} {separator path : String} {o : Options} {id : Nat} {root : Ty} {p : Param}
  {property : Expr} {raw : Option String} {op : Operator} {bop : BinaryOp} {row : Value} {l : Lambda}

def answer (s : Schema) (o : Options) (id : Nat) (root : Ty) (d : Descriptor) (row : Value) :
    Except Error Bool := do
  (← compile s o id root [d]).test row

theorem answer_of_predicate {d : Descriptor} {e : Expr} {b : Bool} (hd : d.operator ≠ .none)
    (h : predicate s o.separator (rootParam o id root) d = .ok e)
    (heval : e.eval (rootParam o id root) row = .ok (.bool b)) : answer s o id root d row = .ok b := by
  unfold answer
  rw [compile_singleton hd, h]
  show Lambda.test ⟨rootParam o id root, e⟩ row = .ok b
  rw [Lambda.test_of_eq_ok (t := some b) heval]
  cases b <;> rfl

theorem Operator.ne_none_of_comparison (hop : op.comparison? = some bop) : op ≠ .none := by
  rintro rfl
  cases hop

theorem predicate_eq_bind (hop : op.comparison? = some bop) :
    predicate s separator p ⟨path, op, raw⟩ =
      resolve s (.param p) path >>= fun property => comparison s bop property raw := by
  cases op <;> cases hop <;> rfl

theorem predicate_comparison (hop : op.comparison? = some bop)
    (hproperty : resolve s (.param p) path = .ok property)
    (hconstant : constant s raw property.ty = .ok (constantExpr c property.ty)) :
    predicate s separator p ⟨path, op, raw⟩ =
      mkBinary bop property (constantExpr c property.ty) := by
  rw [predicate_eq_bind hop, hproperty, ok_bind, comparison, hconstant, ok_bind]

theorem mkBinary_constant_eq_ok {e : Expr} (hop : op.comparison? = some bop) :
    mkBinary bop property (constantExpr c property.ty) = .ok e ↔
      (op.Orders = true → property.ty.isOrderable = true) ∧
        e = .binary bop property (constantExpr c property.ty) := by
  rw [mkBinary_eq_ok, ty_constantExpr, BinaryOp.accepts_constant hop]

theorem of_compile_comparison (hop : op.comparison? = some bop)
    (h : compile s o id root [⟨path, op, raw⟩] = .ok l) :
    ∃ property c, resolve s (.param (rootParam o id root)) path = .ok property ∧
      constantValue s raw property.ty = .ok c ∧
      constant s raw property.ty = .ok (constantExpr c property.ty) := by
  rw [compile_singleton (Operator.ne_none_of_comparison hop)] at h
  obtain ⟨e, he, -⟩ := map_eq_ok.1 h
  rw [predicate_eq_bind hop] at he
  obtain ⟨property, hproperty, he⟩ := bind_eq_ok.1 he
  obtain ⟨x, hx, -⟩ := bind_eq_ok.1 he
  obtain ⟨c, hc, rfl⟩ := of_constant_eq_ok hx
  exact ⟨property, c, hproperty, hc, hx⟩

section Resolved
variable (hproperty : resolve s (.param (rootParam o id root)) path = .ok property)
  (hconstant : constant s raw property.ty = .ok (constantExpr c property.ty))
include hproperty hconstant

/-- All comparisons compile for a property of an orderable type, and for others the two equalities do. -/
theorem exists_compile_comparison_iff (hop : op.comparison? = some bop) :
    (∃ l, compile s o id root [⟨path, op, raw⟩] = .ok l) ↔
      (op.Orders = true → property.ty.isOrderable = true) := by
  rw [compile_singleton (Operator.ne_none_of_comparison hop),
    predicate_comparison hop hproperty hconstant]
  constructor
  · rintro ⟨l, h⟩
    obtain ⟨e, he, -⟩ := map_eq_ok.1 h
    exact ((mkBinary_constant_eq_ok hop).1 he).1
  · intro horders
    rw [(mkBinary_constant_eq_ok hop).2 ⟨horders, rfl⟩]
    exact ⟨_, rfl⟩

theorem answer_comparison {b : Bool} (hop : op.comparison? = some bop)
    (horders : op.Orders = true → property.ty.isOrderable = true) (hread : row.readPath path = .ok v)
    (h : bop.compare v c = .ok (.bool b)) : answer s o id root ⟨path, op, raw⟩ row = .ok b := by
  have hpredicate : predicate s o.separator (rootParam o id root) ⟨path, op, raw⟩ =
      .ok (.binary bop property (constantExpr c property.ty)) := by
    rw [predicate_comparison hop hproperty hconstant]
    exact (mkBinary_constant_eq_ok hop).2 ⟨horders, rfl⟩
  refine answer_of_predicate (Operator.ne_none_of_comparison hop) hpredicate ?_
  rw [eval_comparison (Operator.decisive_of_comparison hop)
    ((eval_resolve_param hproperty).trans hread) (eval_constantExpr _ _ c _), h]

end Resolved

/-! ## Consistency -/

/-- The value has one of three places before, at and after the constant. The order of values tells which,
and the orders that admit equal values are the two others joined with equality. -/
def Ordered (answer : Operator → Except Error Bool) (v c : Value) : Prop :=
  ∃ less equal greater, answer .less = .ok less ∧ answer .equal = .ok equal ∧
    answer .greater = .ok greater ∧ answer .lessOrEqual = .ok (less || equal) ∧
    answer .greaterOrEqual = .ok (greater || equal) ∧ [less, equal, greater].count true = 1 ∧
    (less = true ↔ v.Precedes c) ∧ (equal = true ↔ v = c) ∧ (greater = true ↔ c.Precedes v)

/-- The answers of the comparisons of a value with a constant are consistent. -/
structure Consistent (answer : Operator → Except Error Bool) (ty : Ty) (v c : Value) : Prop where
  /-- The two equalities are opposite, and null is equal to null only. -/
  equality : ∃ b, answer .equal = .ok b ∧ answer .notEqual = .ok (!b) ∧
    (v = .null ∨ c = .null → (b = true ↔ v = .null ∧ c = .null))
  /-- No order has a place for null. -/
  null : ty.isOrderable = true → v = .null ∨ c = .null → ∀ op, op.Orders = true → answer op = .ok false
  order : ty.isOrderable = true → ty.underlying ≠ .float → v ≠ .null → c ≠ .null → Ordered answer v c

theorem equal_of_null (h : v = .null ∨ c = .null) : v.equal c = true ↔ v = .null ∧ c = .null := by
  rcases h with rfl | rfl
  · cases c <;> simp [Value.equal]
  · simp [Value.equal_null]

/-- One outcome decides all comparisons of values that are ranked. -/
theorem ordered_of_ranks (answer : Operator → Except Error Bool) {r : Ordering}
    (hequal : answer .equal = .ok (v.equal c)) (hranks : Value.Ranks r v c)
    (heq : v.equal c = true ↔ v = c)
    (horder : ∀ op bop, op.comparison? = some bop → op.Orders = true → answer op = .ok (bop.admits r)) :
    Ordered answer v c := by
  have hsame : v.equal c = (r == .eq) := by rw [Bool.eq_iff_iff, heq, beq_iff_eq, hranks.eq]
  rw [hsame] at hequal
  refine ⟨r == .lt, r == .eq, r == .gt, horder .less _ rfl rfl, hequal, horder .greater _ rfl rfl, ?_, ?_,
    ?_, ?_, ?_, ?_⟩
  · rw [horder .lessOrEqual _ rfl rfl]
    cases r <;> rfl
  · rw [horder .greaterOrEqual _ rfl rfl]
    cases r <;> rfl
  · cases r <;> rfl
  · rw [beq_iff_eq, hranks.lt]
  · rw [beq_iff_eq, hranks.eq]
  · rw [beq_iff_eq, hranks.gt]

theorem consistent_of_resolved (hproperty : resolve s (.param (rootParam o id root)) path = .ok property)
    (hconstant : constant s raw property.ty = .ok (constantExpr c property.ty))
    (hc : c.Conforms s property.ty) (hread : row.readPath path = .ok v)
    (hv : v.Conforms s property.ty) :
    Consistent (fun op => answer s o id root ⟨path, op, raw⟩ row) property.ty v c := by
  have hequal : answer s o id root ⟨path, .equal, raw⟩ row = .ok (v.equal c) :=
    answer_comparison hproperty hconstant rfl nofun hread rfl
  have hnotEqual : answer s o id root ⟨path, .notEqual, raw⟩ row = .ok !(v.equal c) :=
    answer_comparison hproperty hconstant rfl nofun hread rfl
  refine ⟨⟨_, hequal, hnotEqual, equal_of_null⟩, ?_, ?_⟩
  · intro hty hnull op horders
    obtain ⟨bop, hop⟩ := Operator.comparison_of_orders horders
    have hordering : bop.IsOrdering := Operator.isOrdering_of_orders hop horders
    exact answer_comparison hproperty hconstant hop (fun _ => hty) hread
      (BinaryOp.compare_null hordering hnull)
  · intro hty hfloat hvnull hcnull
    obtain ⟨r, hr, hranks, heq⟩ := hv.exists_ranks hc hty hfloat hvnull hcnull
    refine ordered_of_ranks (fun op => answer s o id root ⟨path, op, raw⟩ row) hequal hranks heq
      fun op bop hop horders => ?_
    have hordering : bop.IsOrdering := Operator.isOrdering_of_orders hop horders
    exact answer_comparison hproperty hconstant hop (fun _ => hty) hread
      (BinaryOp.compare_ordered hordering hvnull hcnull hr)

/-- **The six comparisons are consistent.** Once one comparison of a property with a value compiles, the
equalities do, and the orders do exactly if the type of the property has an order. On a row where the
path reads a value of the property's type, all of them answer for this value and for the constant that
the descriptor's value denotes. -/
theorem comparisons_consistent (hop : op.comparison? = some bop)
    (h : compile s o id root [⟨path, op, raw⟩] = .ok l) :
    ∃ property c, resolve s (.param (rootParam o id root)) path = .ok property ∧
      constantValue s raw property.ty = .ok c ∧
      (∀ op' bop', op'.comparison? = some bop' →
        ((∃ l', compile s o id root [⟨path, op', raw⟩] = .ok l') ↔
          (op'.Orders = true → property.ty.isOrderable = true))) ∧
      ∀ row v, row.readPath path = .ok v → v.Conforms s property.ty →
        Consistent (fun op' => answer s o id root ⟨path, op', raw⟩ row) property.ty v c := by
  obtain ⟨property, c, hproperty, hc, hconstant⟩ := of_compile_comparison hop h
  refine ⟨property, c, hproperty, hc, fun op' bop' hop' => ?_, fun row v hread hv => ?_⟩
  · exact exists_compile_comparison_iff hproperty hconstant hop'
  · exact consistent_of_resolved hproperty hconstant (conforms_of_constantValue hc) hread hv

/-! ## Ages below an age -/

/-- The visitors under the age of 7. -/
def underSeven : Lambda :=
  ⟨visitor, .binary .less visitorAge (.convert (.literal (.int 7) .int) (.nullable .int))⟩

theorem compile_underSeven :
    compile visitors {} 1 (.record "Visitor") [⟨"Age", .less, some " 7"⟩] = .ok underSeven := by rfl

/-- A visitor of age 6 is found with the visitors up to the age of 7, and one of unknown age is not. -/
theorem answer_upToSeven :
    compile visitors {} 1 (.record "Visitor") [⟨"Age", .less, some " 7"⟩] = .ok underSeven ∧
      answer visitors {} 1 (.record "Visitor") ⟨"Age", .lessOrEqual, some " 7"⟩
        (.record [("Age", .int 6)]) = .ok true ∧
      answer visitors {} 1 (.record "Visitor") ⟨"Age", .lessOrEqual, some " 7"⟩ (.record []) =
        .ok false := by
  have hless : Operator.less.comparison? = some .less := rfl
  obtain ⟨property, c, hproperty, hc, -, hrows⟩ := comparisons_consistent hless compile_underSeven
  cases (show Except.ok visitorAge = .ok property from hproperty)
  cases (show Except.ok (Value.int 7) = .ok c from hc)
  refine ⟨compile_underSeven, ?_, ?_⟩
  · have hconsistent := hrows (.record [("Age", .int 6)]) (.int 6) rfl (.nullable (.int 6))
    obtain ⟨less, equal, greater, -, -, -, hor, -, -, hfirst, -⟩ :=
      hconsistent.order rfl nofun nofun nofun
    have hprecedes : (Value.int 6).Precedes (.int 7) := .int (by decide)
    refine hor.trans ?_
    rw [hfirst.2 hprecedes]
    rfl
  · have hconsistent := hrows (.record []) .null rfl (.null _)
    exact hconsistent.null rfl (.inl rfl) .lessOrEqual rfl

end Filter

end RecordQuery
