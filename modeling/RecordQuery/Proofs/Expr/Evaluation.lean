import RecordQuery.Proofs.Value.Conformance

/-!
# Values of nodes

What a node evaluates to, when the values of its operands are known.

* `eval_literal`, `eval_comparison`, `eval_call_singleton`, `eval_toText` : constants, comparisons and
  calls;
* `eval_decided`, `eval_undecided`, `eval_junction` : a connective of two truth values;
* `exists_eval_foldl`, `exists_eval_foldl_bool` : a chain of a connective over tests with truth values,
  and over tests that are true or false;
* `eval_foldl_of_error` : an error at the start of a chain is the error of the chain.
-/

namespace RecordQuery

@[simp] theorem Value.truth_ofTruth (t : Option Bool) : (ofTruth t).truth = .ok t := by
  cases t <;> rfl

theorem Value.ofTruth_inj {a b : Option Bool} : ofTruth a = ofTruth b ↔ a = b := by
  refine ⟨fun h => ?_, congrArg ofTruth⟩
  rw [← Except.ok.injEq (ε := Error), ← truth_ofTruth, h, truth_ofTruth]

namespace Expr

variable {p : Param} {arg : Value} {left right e : Expr} {op : BinaryOp}

/-! ## Constants, comparisons and calls -/

section Operands
variable {a b : Value}

theorem eval_literal (v : Value) (ty : Ty) : (Expr.literal v ty).eval p arg = .ok v := by rw [eval]

theorem eval_comparison (hop : op.decisive? = none) (hleft : left.eval p arg = .ok a)
    (hright : right.eval p arg = .ok b) :
    (Expr.binary op left right).eval p arg = op.compare a b := by
  rw [eval, hleft, ok_bind, hop]
  dsimp only
  rw [hright, ok_bind]

theorem eval_call_singleton {m : Method} (hleft : left.eval p arg = .ok a)
    (hright : right.eval p arg = .ok b) :
    (Expr.call m left [right]).eval p arg = m.apply a [b] := by
  rw [eval, hleft, ok_bind, evalAll, hright, ok_bind, evalAll, ok_bind]
  rfl

/-- Any value has a text, but null, for which the text is null. -/
theorem eval_toText (h : e.eval p arg = .ok a) :
    ∃ t, (Expr.call .toText e []).eval p arg = .ok t ∧
      (a = .null ∧ t = .null ∨ a ≠ .null ∧ t = .string a.text) := by
  rw [eval, h, ok_bind, evalAll, ok_bind]
  cases a with
  | null => exact ⟨.null, rfl, .inl ⟨rfl, rfl⟩⟩
  | _ => exact ⟨_, rfl, .inr ⟨nofun, rfl⟩⟩

theorem exists_eval_toText {s : Schema} (h : e.eval p arg = .ok a) :
    ∃ t, (Expr.call .toText e []).eval p arg = .ok t ∧ t.Conforms s .string := by
  obtain ⟨t, ht, ⟨-, rfl⟩ | ⟨-, rfl⟩⟩ := eval_toText h
  · exact ⟨.null, ht, .null _⟩
  · exact ⟨_, ht, .string _⟩

end Operands

/-! ## Connectives -/

section Connectives
variable {d : Bool} {a b : Option Bool}

/-- The right operand of a connective is not looked at when the left one decides. -/
theorem eval_decided (hop : op.decisive? = some d)
    (hleft : left.eval p arg = .ok (.ofTruth (some d))) :
    (Expr.binary op left right).eval p arg = .ok (.ofTruth (some d)) := by
  rw [eval, hleft, ok_bind, hop]
  simp only [Value.truth_ofTruth, ok_bind, if_pos]
  rfl

theorem eval_undecided (hop : op.decisive? = some d) (hleft : left.eval p arg = .ok (.ofTruth a))
    (ha : a ≠ some d) : (Expr.binary op left right).eval p arg =
      (right.eval p arg >>= fun r => r.truth >>= fun b => .ok (.ofTruth (junction d a b))) := by
  rw [eval, hleft, ok_bind, hop]
  simp only [Value.truth_ofTruth, ok_bind, if_neg ha]
  rfl

theorem eval_junction (hop : op.decisive? = some d) (hleft : left.eval p arg = .ok (.ofTruth a))
    (hright : right.eval p arg = .ok (.ofTruth b)) :
    (Expr.binary op left right).eval p arg = .ok (.ofTruth (junction d a b)) := by
  by_cases ha : a = some d
  · rw [eval_decided hop (ha ▸ hleft), junction, if_pos (.inl ha)]
  · rw [eval_undecided hop hleft ha, hright, ok_bind, Value.truth_ofTruth, ok_bind]

theorem junction_eq_some : junction d a b = some d ↔ a = some d ∨ b = some d := by
  unfold junction
  split
  · rename_i h
    exact iff_of_true rfl h
  · rename_i h
    refine iff_of_false ?_ h
    split <;> cases d <;> simp

/-- A chain of a connective has the truth value that decides exactly if the start or one of the tests
after it has. -/
theorem exists_eval_foldl {es : List Expr} (hop : op.decisive? = some d)
    (he : e.eval p arg = .ok (.ofTruth a))
    (hes : ∀ x ∈ es, ∃ b, x.eval p arg = .ok (.ofTruth b)) :
    ∃ t, (es.foldl (.binary op) e).eval p arg = .ok (.ofTruth t) ∧
      (t = some d ↔ a = some d ∨ ∃ x ∈ es, x.eval p arg = .ok (.ofTruth (some d))) := by
  induction es generalizing e a with
  | nil => exact ⟨a, he, by simp⟩
  | cons x xs ih =>
    obtain ⟨⟨b, hb⟩, hxs⟩ := List.forall_mem_cons.1 hes
    obtain ⟨t, ht, hiff⟩ := ih (eval_junction hop he hb) hxs
    have hx : x.eval p arg = .ok (.ofTruth (some d)) ↔ b = some d := by
      rw [hb, Except.ok.injEq, Value.ofTruth_inj]
    refine ⟨t, ht, ?_⟩
    rw [hiff, junction_eq_some, or_assoc, List.exists_mem_cons_iff, hx]

/-- A chain of a connective over tests that are true or false is true or false. -/
theorem exists_eval_foldl_bool {es : List Expr} {a : Bool} (hop : op.decisive? = some d)
    (he : e.eval p arg = .ok (.bool a)) (hes : ∀ x ∈ es, ∃ b, x.eval p arg = .ok (.bool b)) :
    ∃ b, (es.foldl (.binary op) e).eval p arg = .ok (.bool b) ∧
      (b = d ↔ a = d ∨ ∃ x ∈ es, x.eval p arg = .ok (.bool d)) := by
  induction es generalizing e a with
  | nil => exact ⟨a, he, by simp⟩
  | cons x xs ih =>
    obtain ⟨⟨b, hb⟩, hxs⟩ := List.forall_mem_cons.1 hes
    have hstep : (Expr.binary op e x).eval p arg =
        .ok (.ofTruth (junction d (some a) (some b))) := eval_junction hop he hb
    have hjunction : junction d (some a) (some b) = some (if a = d ∨ b = d then d else !d) := by
      cases a <;> cases b <;> cases d <;> rfl
    rw [hjunction] at hstep
    obtain ⟨t, ht, hiff⟩ := ih hstep hxs
    have hx : x.eval p arg = .ok (.bool d) ↔ b = d := by rw [hb, Except.ok.injEq, Value.bool.injEq]
    refine ⟨t, ht, ?_⟩
    rw [hiff, List.exists_mem_cons_iff, hx, ← or_assoc]
    cases a <;> cases b <;> cases d <;> simp

end Connectives

theorem eval_foldl_of_error {es : List Expr} {err : Error} (h : e.eval p arg = .error err) :
    (es.foldl (.binary op) e).eval p arg = .error err := by
  induction es generalizing e with
  | nil => exact h
  | cons x xs ih =>
    apply ih
    rw [eval, h, error_bind]

end Expr

end RecordQuery
