import RecordQuery.Filter.Compile
import RecordQuery.Proofs.Expr.Typing

/-!
# The predicates of filters

What the predicate of a descriptor is, once it could be made.

* `Expr.joined`, `fold_eq_ok` : expressions joined by an operator, without the checks;
* `Filter.constantValue`, `Filter.constantExpr` : the value of a constant, and the expression for it;
* `Filter.Emptiness`, `Filter.Membership`, `Filter.Asks` : the expressions that a descriptor can ask
  for, with what has been checked on the way;
* `of_predicate_eq_ok` : a predicate is one of these, on the property that the path resolves to;
* `Expr.IsTest` : a test has no other values than true, false and null, whatever its operands are;
* `Method.accepts_of_isText` : the methods of text take texts;
* `Asks.isTest` : what a descriptor asks for is a test.
-/

namespace RecordQuery

/-! ## Joined expressions -/

namespace Expr

/-- The expressions joined by the operator from left to right, whatever their types. -/
def joined (op : BinaryOp) : List Expr → Option Expr
  | [] => none
  | e :: es => some (es.foldl (.binary op) e)

variable {op : BinaryOp} {es : List Expr}

theorem eq_foldl_of_foldlM {e e' : Expr} (h : es.foldlM (mkBinary op) e = .ok e') :
    e' = es.foldl (.binary op) e := by
  induction es generalizing e with
  | nil => exact (Except.ok.inj h).symm
  | cons x xs ih =>
    rw [List.foldlM_cons, bind_eq_ok] at h
    obtain ⟨b, hb, h⟩ := h
    obtain ⟨-, rfl⟩ := mkBinary_eq_ok.1 hb
    exact ih h

theorem eq_joined_of_fold {x : Option Expr} (h : fold op es = .ok x) : x = joined op es := by
  cases es with
  | nil => exact (Except.ok.inj h).symm
  | cons e es =>
    obtain ⟨e', hes, rfl⟩ := map_eq_ok.1 h
    rw [eq_foldl_of_foldlM hes]
    rfl

theorem accepts_bool {d : Bool} (hop : op.decisive? = some d) : op.accepts .bool .bool := by
  cases op with
  | and => rfl
  | or => rfl
  | _ => cases hop

theorem foldlM_eq_ok {d : Bool} (hop : op.decisive? = some d) {e : Expr} (he : e.ty = .bool)
    (hes : ∀ x ∈ es, x.ty = .bool) : es.foldlM (mkBinary op) e = .ok (es.foldl (.binary op) e) := by
  induction es generalizing e with
  | nil => rfl
  | cons x xs ih =>
    have hx : x.ty = .bool := hes x List.mem_cons_self
    have hstep : mkBinary op e x = .ok (.binary op e x) :=
      mkBinary_eq_ok.2 ⟨by rw [he, hx]; exact accepts_bool hop, rfl⟩
    rw [List.foldlM_cons, hstep, ok_bind]
    exact ih rfl fun y hy => hes y (List.mem_cons_of_mem x hy)

theorem fold_eq_ok {d : Bool} (hop : op.decisive? = some d) (hes : ∀ x ∈ es, x.ty = .bool) :
    fold op es = .ok (joined op es) := by
  cases es with
  | nil => rfl
  | cons e es =>
    have htail : ∀ x ∈ es, x.ty = .bool := fun x hx => hes x (List.mem_cons_of_mem e hx)
    unfold fold
    dsimp only
    rw [foldlM_eq_ok hop (hes e List.mem_cons_self) htail]
    rfl

end Expr

namespace Filter
open RecordQuery.Expr

variable {s : Schema}

/-! ## Constants -/

/-- The value that a text denotes as a constant of the type; no text denotes null. -/
def constantValue (s : Schema) (raw : Option String) (ty : Ty) : Except Error Value :=
  raw.elim (.ok .null) (Value.read s · ty)

/-- The expression of a constant; one of a nullable type is converted to it. -/
def constantExpr (c : Value) (ty : Ty) : Expr :=
  if ty.isNullable then .convert (.literal c ty.underlying) ty else .literal c ty

theorem ty_constantExpr (c : Value) (ty : Ty) : (constantExpr c ty).ty = ty := by
  unfold constantExpr
  split <;> rfl

/-- A constant has its value under any argument: a nullable type admits null. -/
theorem eval_constantExpr (p : Param) (arg c : Value) (ty : Ty) :
    (constantExpr c ty).eval p arg = .ok c := by
  unfold constantExpr
  split
  · rename_i hnull
    have hadmits : ty.admitsNull = true := by
      cases ty with
      | nullable inner => rfl
      | _ => cases hnull
    rw [eval, eval, ok_bind, hadmits]
    cases c.isNull <;> rfl
  · rw [eval]

theorem of_constant_eq_ok {raw : Option String} {ty : Ty} {e : Expr} (h : constant s raw ty = .ok e) :
    ∃ c, constantValue s raw ty = .ok c ∧ e = constantExpr c ty := by
  have hvalue : (constantValue s raw ty >>= fun c =>
      if ty.isNullable then mkLiteral c ty.underlying >>= fun l => mkConvert l ty
      else mkLiteral c ty) = .ok e := by
    rw [← h]
    cases raw <;> rfl
  obtain ⟨c, hc, h⟩ := bind_eq_ok.1 hvalue
  refine ⟨c, hc, ?_⟩
  unfold constantExpr
  split at h
  · rename_i hnull
    obtain ⟨l, hl, h⟩ := bind_eq_ok.1 h
    obtain ⟨-, rfl⟩ := mkLiteral_eq_ok.1 hl
    rw [if_pos hnull, (mkConvert_eq_ok.1 h).2]
  · rename_i hnull
    rw [if_neg hnull, (mkLiteral_eq_ok.1 h).2]

/-! ## What descriptors ask for -/

inductive Emptiness (s : Schema) (property : Expr) (raw : Option String) : Expr → Prop
  | text (hty : property.ty.isText) :
      Emptiness s property raw (.binary .or (.binary .equal property (null property.ty))
        (.binary .equal property (.literal (.string "") property.ty)))
  | other {c : Value} (hty : property.ty.isText = false)
      (hc : constantValue s raw property.ty = .ok c) :
      Emptiness s property raw (.binary .equal property (constantExpr c property.ty))

inductive Membership (s : Schema) (separator : String) (property : Expr) (raw : String) : Expr → Prop
  | uuid {tests : List Expr} (hty : property.ty.underlying = .uuid)
      (htests : List.Forall₂ (fun token test => ∃ u, Value.read s token .uuid = .ok u ∧
        test = .binary .equal (.literal u .uuid) property) (Text.split raw separator) tests) :
      Membership s separator property raw ((joined .or tests).getD (.literal (.bool false) .bool))
  | enum {name : String} {constants : List Constant} (hty : property.ty.underlying = .enum name)
      (hconstants : List.Forall₂ (fun token c => Constant.read s name token = .ok c)
        (Text.split raw separator) constants) :
      Membership s separator property raw
        (.call .listContains (.literal (.list (constants.map .enum)) (.list (.enum name))) [property])
  | text (hty : property.ty.isText) :
      Membership s separator property raw (.call .listContains
        (.literal (.list ((Text.split raw separator).map .string)) (.list .string)) [property])
  | other (huuid : property.ty.underlying ≠ .uuid) (henum : ∀ name, property.ty.underlying ≠ .enum name)
      (hty : property.ty.isText = false) : Membership s separator property raw (.call .listContains
        (.literal (.list ((Text.split raw separator).map .string)) (.list .string))
        [.call .toText property []])

def Operator.comparison? : Operator → Option BinaryOp
  | .equal => some .equal
  | .notEqual => some .notEqual
  | .less => some .less
  | .lessOrEqual => some .lessOrEqual
  | .greater => some .greater
  | .greaterOrEqual => some .greaterOrEqual
  | _ => Option.none

def Operator.textMethod? : Operator → Option Method
  | .startsWith => some .startsWith
  | .contains => some .contains
  | _ => Option.none

/-- The expressions that a descriptor asks for, on the property that its path stands for. -/
inductive Asks (s : Schema) (separator : String) (property : Expr) (d : Descriptor) : Expr → Prop
  | comparison {op : BinaryOp} {c : Value} (hop : d.operator.comparison? = some op)
      (hc : constantValue s d.value property.ty = .ok c)
      (haccepts : op.accepts property.ty property.ty) :
      Asks s separator property d (.binary op property (constantExpr c property.ty))
  | textCall {m : Method} {c : Value} (hm : d.operator.textMethod? = some m)
      (hty : property.ty.isText) (hc : constantValue s d.value property.ty = .ok c) :
      Asks s separator property d (.call m property [constantExpr c property.ty])
  | callOnTexts {m : Method} {c : Value} (hm : d.operator.textMethod? = some m)
      (hty : property.ty.isText = false) (hvalue : d.value.isSome)
      (hc : constantValue s d.value property.ty = .ok c) :
      Asks s separator property d (.call m (.call .toText property [])
        [.call .toText (constantExpr c property.ty) []])
  | membership {raw : String} {e : Expr} (hop : d.operator = .oneOf) (hvalue : d.value = some raw)
      (h : Membership s separator property raw e) : Asks s separator property d e
  | isEmpty {e : Expr} (hop : d.operator = .isEmpty) (h : Emptiness s property d.value e) :
      Asks s separator property d e
  | isNotEmpty {e : Expr} (hop : d.operator = .isNotEmpty) (h : Emptiness s property d.value e) :
      Asks s separator property d (.not e)

variable {separator : String} {property e : Expr}

theorem of_comparison_eq_ok {op : BinaryOp} {raw : Option String}
    (h : comparison s op property raw = .ok e) :
    ∃ c, constantValue s raw property.ty = .ok c ∧ op.accepts property.ty property.ty ∧
      e = .binary op property (constantExpr c property.ty) := by
  obtain ⟨l, hl, h⟩ := bind_eq_ok.1 h
  obtain ⟨c, hc, rfl⟩ := of_constant_eq_ok hl
  obtain ⟨haccepts, rfl⟩ := mkBinary_eq_ok.1 h
  rw [ty_constantExpr] at haccepts
  exact ⟨c, hc, haccepts, rfl⟩

theorem of_textMatch_eq_ok {m : Method} {raw : Option String}
    (h : textMatch s m property raw = .ok e) :
    ∃ c, constantValue s raw property.ty = .ok c ∧
      ((property.ty.isText = true ∧ e = .call m property [constantExpr c property.ty]) ∨
        (property.ty.isText = false ∧ raw.isSome ∧ e = .call m (.call .toText property [])
          [.call .toText (constantExpr c property.ty) []])) := by
  obtain ⟨l, hl, h⟩ := bind_eq_ok.1 h
  obtain ⟨c, hc, rfl⟩ := of_constant_eq_ok hl
  refine ⟨c, hc, ?_⟩
  split at h
  · rename_i hty
    exact .inl ⟨hty, (mkCall_eq_ok.1 h).2⟩
  · rename_i hty
    split at h
    · cases h
    · rename_i hraw
      obtain ⟨target, htarget, h⟩ := bind_eq_ok.1 h
      obtain ⟨arg, harg, h⟩ := bind_eq_ok.1 h
      rw [(mkCall_eq_ok.1 htarget).2, (mkCall_eq_ok.1 harg).2] at h
      refine .inr ⟨by simpa using hty, ?_, (mkCall_eq_ok.1 h).2⟩
      cases raw with
      | none => exact absurd rfl hraw
      | some raw => rfl

theorem of_emptiness_eq_ok {raw : Option String} (h : emptiness s property raw = .ok e) :
    Emptiness s property raw e := by
  unfold emptiness at h
  dsimp only at h
  split at h
  · rename_i hty
    obtain ⟨isNull, hnull, h⟩ := bind_eq_ok.1 h
    obtain ⟨blank, hblank, h⟩ := bind_eq_ok.1 h
    obtain ⟨isBlank, hisBlank, h⟩ := bind_eq_ok.1 h
    rw [(mkLiteral_eq_ok.1 hblank).2] at hisBlank
    rw [(mkBinary_eq_ok.1 hnull).2, (mkBinary_eq_ok.1 hisBlank).2] at h
    rw [(mkBinary_eq_ok.1 h).2]
    exact .text hty
  · rename_i hty
    obtain ⟨c, hc, -, rfl⟩ := of_comparison_eq_ok h
    exact .other (by simpa using hty) hc

theorem of_uuidTest_eq_ok {token : String}
    (h : (do mkBinary .equal (← mkLiteral (← Value.read s token .uuid) .uuid) property :
      Except Error Expr) = .ok e) :
    ∃ u, Value.read s token .uuid = .ok u ∧ e = .binary .equal (.literal u .uuid) property := by
  obtain ⟨u, hu, h⟩ := bind_eq_ok.1 h
  obtain ⟨l, hl, h⟩ := bind_eq_ok.1 h
  rw [(mkLiteral_eq_ok.1 hl).2] at h
  exact ⟨u, hu, (mkBinary_eq_ok.1 h).2⟩

theorem of_membership_eq_ok {raw : Option String} (h : membership s separator property raw = .ok e) :
    ∃ text, raw = some text ∧ Membership s separator property text e := by
  cases raw with
  | none => cases h
  | some text =>
    refine ⟨text, rfl, ?_⟩
    unfold membership at h
    dsimp only at h
    split at h
    · rename_i hty
      obtain ⟨tests, htests, h⟩ := bind_eq_ok.1 h
      obtain ⟨x, hx, h⟩ := bind_eq_ok.1 h
      rw [← Except.ok.inj h, eq_joined_of_fold hx]
      exact .uuid hty ((mapM_eq_ok.1 htests).imp fun token test htest => of_uuidTest_eq_ok htest)
    · rename_i name hty
      obtain ⟨constants, hconstants, h⟩ := bind_eq_ok.1 h
      obtain ⟨list, hlist, h⟩ := bind_eq_ok.1 h
      rw [(mkLiteral_eq_ok.1 hlist).2] at h
      rw [(mkCall_eq_ok.1 h).2]
      exact .enum hty (mapM_eq_ok.1 hconstants)
    · rename_i huuid henum
      obtain ⟨list, hlist, h⟩ := bind_eq_ok.1 h
      rw [(mkLiteral_eq_ok.1 hlist).2] at h
      split at h
      · rename_i hty
        rw [pure_eq_ok, ok_bind] at h
        rw [(mkCall_eq_ok.1 h).2]
        exact .text hty
      · rename_i hty
        obtain ⟨needle, hneedle, h⟩ := bind_eq_ok.1 h
        rw [(mkCall_eq_ok.1 hneedle).2] at h
        rw [(mkCall_eq_ok.1 h).2]
        exact .other huuid henum (by simpa using hty)

/-- **A predicate is one of the expressions that its descriptor asks for**, on the property that the
path resolves to. -/
theorem of_predicate_eq_ok {root : Param} {d : Descriptor}
    (h : predicate s separator root d = .ok e) :
    ∃ property, resolve s (.param root) d.property = .ok property ∧ Asks s separator property d e := by
  obtain ⟨property, hproperty, h⟩ := bind_eq_ok.1 h
  refine ⟨property, hproperty, ?_⟩
  have hcomparison : ∀ op, d.operator.comparison? = some op →
      comparison s op property d.value = .ok e → Asks s separator property d e := by
    intro op hop h
    obtain ⟨c, hc, haccepts, rfl⟩ := of_comparison_eq_ok h
    exact .comparison hop hc haccepts
  have htextMatch : ∀ m, d.operator.textMethod? = some m →
      textMatch s m property d.value = .ok e → Asks s separator property d e := by
    intro m hm h
    obtain ⟨c, hc, ⟨hty, rfl⟩ | ⟨hty, hvalue, rfl⟩⟩ := of_textMatch_eq_ok h
    · exact .textCall hm hty hc
    · exact .callOnTexts hm hty hvalue hc
  cases hop : d.operator with
  | none =>
    rw [hop] at h
    cases h
  | equal | notEqual | less | lessOrEqual | greater | greaterOrEqual =>
    rw [hop] at h hcomparison
    exact hcomparison _ rfl h
  | startsWith | contains =>
    rw [hop] at h htextMatch
    exact htextMatch _ rfl h
  | oneOf =>
    rw [hop] at h
    obtain ⟨raw, hraw, h⟩ := of_membership_eq_ok h
    exact .membership hop hraw h
  | isEmpty =>
    rw [hop] at h
    exact .isEmpty hop (of_emptiness_eq_ok h)
  | isNotEmpty =>
    rw [hop] at h
    obtain ⟨e', he', h⟩ := bind_eq_ok.1 h
    rw [(mkNot_eq_ok.1 h).2]
    exact .isNotEmpty hop (of_emptiness_eq_ok he')

end Filter

/-! ## Tests -/

namespace Expr

/-- A constant, a connective, a comparison, or a call with a truth value. -/
inductive IsTest : Expr → Prop
  | literal (b : Bool) : IsTest (.literal (.bool b) .bool)
  | binary (op : BinaryOp) (left right : Expr) : IsTest (.binary op left right)
  | not (operand : Expr) : IsTest (.not operand)
  | call {m : Method} (hm : m ≠ .toText) (target : Expr) (args : List Expr) :
      IsTest (.call m target args)

theorem IsTest.ty {e : Expr} (h : e.IsTest) : e.ty = .bool := by
  cases h with
  | literal b => rfl
  | binary op left right => rfl
  | not operand => rfl
  | @call m hm target args => cases m <;> first | rfl | contradiction

theorem isTest_foldl {op : BinaryOp} {es : List Expr} {e : Expr} (h : e.IsTest) :
    (es.foldl (.binary op) e).IsTest := by
  induction es generalizing e with
  | nil => exact h
  | cons x xs ih => exact ih (.binary op e x)

theorem isTest_joined {op : BinaryOp} {es : List Expr} (h : ∀ e ∈ es, e.IsTest) (b : Bool) :
    ((joined op es).getD (.literal (.bool b) .bool)).IsTest := by
  cases es with
  | nil => exact .literal b
  | cons e es => exact isTest_foldl (h e List.mem_cons_self)

end Expr

theorem BinaryOp.eq_ofTruth_of_compare {op : BinaryOp} {left right v : Value}
    (h : op.compare left right = .ok v) : ∃ t, v = .ofTruth t := by
  unfold compare at h
  split at h
  · exact ⟨some _, (Except.ok.inj h).symm⟩
  · exact ⟨some _, (Except.ok.inj h).symm⟩
  · split at h
    · exact ⟨some _, (Except.ok.inj h).symm⟩
    · split at h
      · exact ⟨some _, (Except.ok.inj h).symm⟩
      · cases h

theorem Method.eq_ofTruth_of_apply {m : Method} {target v : Value} {args : List Value}
    (hm : m ≠ .toText) (h : m.apply target args = .ok v) : ∃ t, v = .ofTruth t := by
  unfold apply at h
  split at h
  · exact ⟨some _, (Except.ok.inj h).symm⟩
  · exact ⟨none, (Except.ok.inj h).symm⟩
  · exact ⟨none, (Except.ok.inj h).symm⟩
  · contradiction
  · split at h
    · exact ⟨some _, (Except.ok.inj h).symm⟩
    · exact ⟨none, (Except.ok.inj h).symm⟩
    · cases h

/-- A method of text takes a text for a text. -/
theorem Method.accepts_of_isText {m : Method} {target arg : Ty} (hm : m ≠ .toText)
    (hm' : m ≠ .listContains) (htarget : target.isText) (harg : arg.isText) :
    m.accepts target [arg] = true := by
  have haccepts : (target.isText && arg.isText) = true := by rw [htarget, harg]; rfl
  cases m with
  | toText | listContains => contradiction
  | _ => exact haccepts

/-- **A test has the values true, false and null only**, on any argument. -/
theorem Expr.IsTest.eq_ofTruth_of_eval {e : Expr} {p : Param} {arg v : Value} (he : e.IsTest)
    (h : e.eval p arg = .ok v) : ∃ t, v = .ofTruth t := by
  cases he with
  | literal b =>
    rw [eval] at h
    exact ⟨some b, (Except.ok.inj h).symm⟩
  | binary op left right =>
    rw [eval] at h
    obtain ⟨l, -, h⟩ := bind_eq_ok.1 h
    split at h
    · obtain ⟨a, -, h⟩ := bind_eq_ok.1 h
      split at h
      · exact ⟨some _, (Except.ok.inj h).symm⟩
      · obtain ⟨r, -, h⟩ := bind_eq_ok.1 h
        obtain ⟨b, -, h⟩ := bind_eq_ok.1 h
        exact ⟨_, (Except.ok.inj h).symm⟩
    · obtain ⟨r, -, h⟩ := bind_eq_ok.1 h
      exact BinaryOp.eq_ofTruth_of_compare h
  | not operand =>
    rw [eval] at h
    obtain ⟨v', -, h⟩ := bind_eq_ok.1 h
    obtain ⟨t, -, h⟩ := bind_eq_ok.1 h
    exact ⟨_, (Except.ok.inj h).symm⟩
  | call hm target args =>
    rw [eval] at h
    obtain ⟨v', -, h⟩ := bind_eq_ok.1 h
    obtain ⟨vs, -, h⟩ := bind_eq_ok.1 h
    exact Method.eq_ofTruth_of_apply hm h

namespace Filter

variable {s : Schema} {separator : String} {property e : Expr} {d : Descriptor}

theorem Emptiness.isTest {raw : Option String} (h : Emptiness s property raw e) : e.IsTest := by
  cases h with
  | text => exact .binary _ _ _
  | other => exact .binary _ _ _

theorem Membership.isTest {raw : String} (h : Membership s separator property raw e) :
    e.IsTest := by
  cases h with
  | uuid _ htests =>
    refine Expr.isTest_joined (fun test htest => ?_) false
    obtain ⟨token, u, -, rfl⟩ := exists_of_forall₂ htests.flip htest
    exact .binary _ _ _
  | enum => exact .call (by simp) _ _
  | text => exact .call (by simp) _ _
  | other => exact .call (by simp) _ _

theorem Operator.ne_toText_of_textMethod {op : Operator} {m : Method}
    (h : op.textMethod? = some m) : m ≠ .toText := by
  rintro rfl
  cases op <;> cases h

theorem Operator.ne_listContains_of_textMethod {op : Operator} {m : Method}
    (h : op.textMethod? = some m) : m ≠ .listContains := by
  rintro rfl
  cases op <;> cases h

theorem Asks.isTest (h : Asks s separator property d e) : e.IsTest := by
  cases h with
  | comparison => exact .binary _ _ _
  | textCall hm => exact .call (Operator.ne_toText_of_textMethod hm) _ _
  | callOnTexts hm => exact .call (Operator.ne_toText_of_textMethod hm) _ _
  | membership _ _ h => exact h.isTest
  | isEmpty _ h => exact h.isTest
  | isNotEmpty => exact .not _

theorem isTest_of_predicate_eq_ok {root : Param} (h : predicate s separator root d = .ok e) :
    e.IsTest := by
  obtain ⟨property, -, hasks⟩ := of_predicate_eq_ok h
  exact hasks.isTest

end Filter

end RecordQuery
