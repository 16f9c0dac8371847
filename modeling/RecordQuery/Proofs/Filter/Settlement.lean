import RecordQuery.Proofs.Filter.Emptiness
import RecordQuery.Proofs.Filter.Membership
import RecordQuery.Proofs.Value.Reading

/-!
# How predicates are settled

What the predicate of a descriptor comes to, on a property of a declared type. Conversions come first, in
the order of the tokens of a list, and then the order that an operator needs.

* `constant_eq_map` : a constant is refused for its value only;
* `Refuses`, `Aborts`, `Converts` : a conversion that the descriptor needs fails, or meets a moment beyond
  the calendar, or all of them succeed;
* `Settles` : the ways in which a predicate is settled, with one lemma for each kind of operator;
* `settles_predicate` : the predicate of a filter whose path is resolved.

The checks of the operands' types never fail, but for the one that asks for an order.
-/

namespace RecordQuery

namespace Filter
open RecordQuery.Expr

variable {s : Schema} {separator : String} {ty : Ty} {op : Operator} {value : Option String}
  {property e : Expr}

/-! ## Constants -/

/-- A constant of a declared type is refused for its value only. -/
theorem constant_eq_map (hty : ty.IsDeclared s) :
    constant s value ty = (constantValue s value ty).map (constantExpr · ty) := by
  have hunderlying : ty.underlying.underlying = ty.underlying :=
    Ty.underlying_of_not_isNullable hty.not_isNullable_underlying
  have hliteral (c : Value) (hc : c.fits ty.underlying) : (if ty.isNullable then
      mkLiteral c ty.underlying >>= fun l => mkConvert l ty else mkLiteral c ty) =
        .ok (constantExpr c ty) := by
    unfold constantExpr
    split
    · rw [mkLiteral_eq_ok.2 ⟨hc, rfl⟩, ok_bind]
      exact mkConvert_eq_ok.2 ⟨beq_iff_eq.2 hunderlying, rfl⟩
    · rename_i hnot
      rw [Ty.underlying_of_not_isNullable (by simpa using hnot)] at hc
      exact mkLiteral_eq_ok.2 ⟨hc, rfl⟩
  cases value with
  | none => exact hliteral .null (by rw [Value.fits])
  | some raw =>
    show (Value.read s raw ty >>= fun c => if ty.isNullable then
      mkLiteral c ty.underlying >>= fun l => mkConvert l ty else mkLiteral c ty) =
        (Value.read s raw ty).map _
    cases hread : Value.read s raw ty with
    | error err => rfl
    | ok c => exact hliteral c ((Value.read_yields hty).of_eq_ok hread)

/-! ## The conversions of a descriptor -/

def Operator.Orders : Operator → Bool
  | .less | .lessOrEqual | .greater | .greaterOrEqual => true
  | _ => false

/-- The operator converts the descriptor's value to a type of properties. -/
inductive Operator.NeedsConstant (ty : Ty) : Operator → Prop
  | comparison {op : Operator} {bop : BinaryOp} (h : op.comparison? = some bop) : NeedsConstant ty op
  | textMatch {op : Operator} {m : Method} (h : op.textMethod? = some m) : NeedsConstant ty op
  | isEmpty (hty : ty.isText = false) : NeedsConstant ty .isEmpty
  | isNotEmpty (hty : ty.isText = false) : NeedsConstant ty .isNotEmpty

inductive Refuses (s : Schema) (separator : String) (ty : Ty) : Operator → Option String → Error → Prop
  | constant {op : Operator} {raw : String} {err : Error} (hop : op.NeedsConstant ty)
      (h : Value.read s raw ty = .error err) (hcode : err.code = "ValueConversion") :
      Refuses s separator ty op (some raw) err
  | missingText {op : Operator} {m : Method} (hm : op.textMethod? = some m) (hty : ty.isText = false) :
      Refuses s separator ty op none (.conversion "null" ty.text .missingText)
  | missingList : Refuses s separator ty .oneOf none (.conversion "null" ty.text .missingList)
  | identifier {raw token : String} {err : Error} (hty : ty.underlying = .uuid)
      (hmem : token ∈ Text.split raw separator) (h : Value.read s token .uuid = .error err) :
      Refuses s separator ty .oneOf (some raw) err
  | enumConstant {raw token name : String} {err : Error} (hty : ty.underlying = .enum name)
      (hmem : token ∈ Text.split raw separator) (h : Constant.read s name token = .error err) :
      Refuses s separator ty .oneOf (some raw) err

/-- A conversion that a descriptor needs meets a moment beyond the calendar. -/
def Aborts (ty : Ty) (op : Operator) (value : Option String) : Prop :=
  op.NeedsConstant ty ∧ ∃ raw, value = some raw ∧ BeyondCalendar raw ty

structure Converts (s : Schema) (separator : String) (ty : Ty) (op : Operator)
    (value : Option String) : Prop where
  constant : op.NeedsConstant ty → ∃ c, constantValue s value ty = .ok c
  text : ∀ m, op.textMethod? = some m → ty.isText = false → value ≠ none
  list : op = .oneOf → ∃ raw, value = some raw ∧
    (ty.underlying = .uuid → ∀ token ∈ Text.split raw separator,
      ∃ u, Value.read s token .uuid = .ok u) ∧
    ∀ name, ty.underlying = .enum name → ∀ token ∈ Text.split raw separator,
      ∃ c, Constant.read s name token = .ok c

theorem Operator.NeedsConstant.ne_oneOf (h : op.NeedsConstant ty) : op ≠ .oneOf := by
  rintro rfl
  cases h with
  | comparison h => cases h
  | textMatch h => cases h

/-- Of a descriptor for one value only the constant is converted, unless it is compared as text. -/
theorem Converts.of_constant {c : Value} (hop : op.NeedsConstant ty)
    (hc : constantValue s value ty = .ok c)
    (htext : ∀ m, op.textMethod? = some m → ty.isText = false → value ≠ none) :
    Converts s separator ty op value :=
  ⟨fun _ => ⟨c, hc⟩, htext, fun h => absurd h hop.ne_oneOf⟩

theorem Converts.not_refuses (h : Converts s separator ty op value) (err : Error) :
    ¬Refuses s separator ty op value err := by
  intro hrefuses
  cases hrefuses with
  | constant hop herr =>
    obtain ⟨c, hc⟩ := h.constant hop
    cases hc.symm.trans herr
  | missingText hm hty => exact h.text _ hm hty rfl
  | missingList =>
    obtain ⟨raw, hraw, -⟩ := h.list rfl
    cases hraw
  | identifier hty hmem herr =>
    obtain ⟨_, ⟨⟩, huuids, -⟩ := h.list rfl
    obtain ⟨u, hu⟩ := huuids hty _ hmem
    cases hu.symm.trans herr
  | enumConstant hty hmem herr =>
    obtain ⟨_, ⟨⟩, -, hconstants⟩ := h.list rfl
    obtain ⟨c, hc⟩ := hconstants _ hty _ hmem
    cases hc.symm.trans herr

theorem Converts.not_aborts (h : Converts s separator ty op value) (hty : ty.IsDeclared s) :
    ¬Aborts ty op value := by
  rintro ⟨hop, raw, rfl, hbeyond⟩
  obtain ⟨c, hc⟩ := h.constant hop
  cases hc.symm.trans (Value.read_of_beyondCalendar hty hbeyond)

theorem Refuses.not_aborts {err : Error} (h : Refuses s separator ty op value err)
    (hty : ty.IsDeclared s) : ¬Aborts ty op value := by
  rintro ⟨hop, raw, hraw, hbeyond⟩
  cases h with
  | constant _ herr hcode =>
    cases hraw
    cases herr.symm.trans (Value.read_of_beyondCalendar hty hbeyond)
    exact absurd hcode (by decide)
  | missingText => cases hraw
  | missingList => cases hraw
  | identifier => exact hop.ne_oneOf rfl
  | enumConstant => exact hop.ne_oneOf rfl

/-! ## How a predicate is settled -/

/-- How the predicate of a descriptor is settled, on a property of the type. -/
inductive Settles (s : Schema) (separator : String) (ty : Ty) (op : Operator) (value : Option String) :
    Except Error Expr → Prop
  | refused {err : Error} (h : Refuses s separator ty op value err) :
      Settles s separator ty op value (.error err)
  | aborted (h : Aborts ty op value) : Settles s separator ty op value (.error .beyondCalendar)
  | mismatch {operation found : String} (hconverts : Converts s separator ty op value)
      (horders : op.Orders = true) (hty : ty.isOrderable = false) :
      Settles s separator ty op value (.error (.mismatch operation found))
  | made {e : Expr} (hconverts : Converts s separator ty op value)
      (h : op.Orders = true → ty.isOrderable = true) : Settles s separator ty op value (.ok e)

theorem Settles.bind {x : Except Error Expr} {f : Expr → Except Error Expr}
    (h : Settles s separator ty op value x) (hf : ∀ e, x = .ok e → ∃ e', f e = .ok e') :
    Settles s separator ty op value (x >>= f) := by
  cases h with
  | refused h => exact .refused h
  | aborted h => exact .aborted h
  | mismatch hconverts horders hty => exact .mismatch hconverts horders hty
  | made hconverts h =>
    obtain ⟨e', he'⟩ := hf _ rfl
    rw [ok_bind, he']
    exact .made hconverts h

theorem Settles.of_constant {f : Expr → Except Error Expr} (hty : ty.IsDeclared s)
    (hop : op.NeedsConstant ty) (hf : ∀ c, constantValue s value ty = .ok c →
      Settles s separator ty op value (f (constantExpr c ty))) :
    Settles s separator ty op value (constant s value ty >>= f) := by
  rw [constant_eq_map hty]
  cases hc : constantValue s value ty with
  | ok c => exact hf c hc
  | error err =>
    cases value with
    | none => cases hc
    | some raw =>
      rcases (Value.read_yields hty).of_eq_error hc with hcode | ⟨rfl, hbeyond⟩
      · exact .refused (.constant hop hc hcode)
      · exact .aborted ⟨hop, raw, rfl, hbeyond⟩

/-! ### Comparisons -/

theorem BinaryOp.accepts_constant {bop : BinaryOp} (hbop : op.comparison? = some bop) :
    bop.accepts ty ty = true ↔ (op.Orders = true → ty.isOrderable = true) := by
  have hequatable : ty.equatable ty = true := beq_self_eq_true ty.underlying
  cases op <;> cases hbop <;> simp [BinaryOp.accepts, Operator.Orders, hequatable]

theorem Operator.textMethod_of_comparison {bop : BinaryOp} (hbop : op.comparison? = some bop) :
    op.textMethod? = Option.none := by
  cases op <;> cases hbop <;> rfl

theorem settles_comparison {bop : BinaryOp} (hty : property.ty.IsDeclared s)
    (hbop : op.comparison? = some bop) :
    Settles s separator property.ty op value (comparison s bop property value) := by
  refine .of_constant hty (.comparison hbop) fun c hc => ?_
  have hconverts : Converts s separator property.ty op value :=
    .of_constant (.comparison hbop) hc (by rw [Operator.textMethod_of_comparison hbop]; nofun)
  by_cases haccepts : bop.accepts property.ty (constantExpr c property.ty).ty = true
  · rw [mkBinary_eq_ok.2 ⟨haccepts, rfl⟩]
    rw [ty_constantExpr, BinaryOp.accepts_constant hbop] at haccepts
    exact .made hconverts haccepts
  · rw [mkBinary, if_neg haccepts]
    rw [ty_constantExpr, BinaryOp.accepts_constant hbop, Classical.not_imp] at haccepts
    exact .mismatch hconverts haccepts.1 (Bool.eq_false_iff.2 haccepts.2)

/-! ### Methods of text -/

theorem Method.accepts_text_of_textMethod {m : Method} {target arg : Ty}
    (hm : op.textMethod? = some m) (htarget : target.isText) (harg : arg.isText) :
    m.accepts target [arg] = true :=
  Method.accepts_of_isText (Operator.ne_toText_of_textMethod hm)
    (Operator.ne_listContains_of_textMethod hm) htarget harg

theorem mkCall_toText (e : Expr) : mkCall .toText e [] = .ok (.call .toText e []) :=
  mkCall_eq_ok.2 ⟨rfl, rfl⟩

theorem settles_textMatch {m : Method} (hty : property.ty.IsDeclared s)
    (hm : op.textMethod? = some m) :
    Settles s separator property.ty op value (textMatch s m property value) := by
  have horders : op.Orders = true → property.ty.isOrderable = true := by
    cases op <;> cases hm <;> simp [Operator.Orders]
  refine .of_constant hty (.textMatch hm) fun c hc => ?_
  have hconverts (hvalue : property.ty.isText = false → value ≠ none) :
      Converts s separator property.ty op value :=
    .of_constant (.textMatch hm) hc fun _ _ => hvalue
  cases htext : property.ty.isText with
  | true =>
    have haccepts : m.accepts property.ty [(constantExpr c property.ty).ty] = true :=
      Method.accepts_text_of_textMethod hm htext (by rw [ty_constantExpr, htext])
    rw [if_pos rfl, mkCall_eq_ok.2 ⟨haccepts, rfl⟩]
    exact .made (hconverts fun hnot => absurd (htext.symm.trans hnot) (by simp)) horders
  | false =>
    rw [if_neg (by simp)]
    cases value with
    | none => exact .refused (.missingText hm htext)
    | some raw =>
      have haccepts : m.accepts .string [.string] = true :=
        Method.accepts_text_of_textMethod hm rfl rfl
      simp only [Option.isNone_some, Bool.false_eq_true, if_false, mkCall_toText, ok_bind]
      rw [mkCall_eq_ok.2 ⟨haccepts, rfl⟩]
      exact .made (hconverts nofun) horders

/-! ### Emptiness -/

/-- The filters for empty values convert the descriptor's value only where the property is no text. -/
theorem Operator.needsConstant_iff_not_isText (hop : op = .isEmpty ∨ op = .isNotEmpty) :
    op.NeedsConstant ty ↔ ty.isText = false := by
  constructor
  · rintro (h | h | h | h)
    · rcases hop with rfl | rfl <;> cases h
    · rcases hop with rfl | rfl <;> cases h
    · exact h
    · exact h
  · intro h
    rcases hop with rfl | rfl
    · exact .isEmpty h
    · exact .isNotEmpty h

theorem settles_emptiness (hty : property.ty.IsDeclared s) (hop : op = .isEmpty ∨ op = .isNotEmpty) :
    Settles s separator property.ty op value (emptiness s property value) := by
  have htextMethod : op.textMethod? = Option.none := by rcases hop with rfl | rfl <;> rfl
  have horders : op.Orders = true → property.ty.isOrderable = true := by
    rcases hop with rfl | rfl <;> exact nofun
  have hequal {c : Expr} (hc : c.ty = property.ty) :
      mkBinary .equal property c = .ok (.binary .equal property c) :=
    mkBinary_eq_ok.2 ⟨by rw [hc]; exact beq_self_eq_true property.ty.underlying, rfl⟩
  unfold emptiness
  dsimp only
  cases htext : property.ty.isText with
  | true =>
    have hunneeded : ¬op.NeedsConstant property.ty := by
      rw [Operator.needsConstant_iff_not_isText hop, htext]
      simp
    have hconverts : Converts s separator property.ty op value := by
      refine ⟨fun h => absurd h hunneeded, by rw [htextMethod]; nofun, ?_⟩
      rintro rfl
      rcases hop with h | h <;> cases h
    have hblank : mkLiteral (.string "") property.ty = .ok (.literal (.string "") property.ty) :=
      mkLiteral_eq_ok.2 ⟨htext, rfl⟩
    rw [if_pos rfl, hequal (c := null property.ty) rfl, ok_bind, hblank, ok_bind,
      hequal (c := .literal (.string "") property.ty) rfl, ok_bind, mkBinary_eq_ok.2 ⟨rfl, rfl⟩]
    exact .made hconverts horders
  | false =>
    have hneeded : op.NeedsConstant property.ty :=
      (Operator.needsConstant_iff_not_isText hop).2 htext
    refine .of_constant hty hneeded fun c hc => ?_
    rw [hequal (ty_constantExpr c _)]
    exact .made (.of_constant hneeded hc (by rw [htextMethod]; nofun)) horders

/-! ### Membership -/

theorem itemsFit_iff {items : List Value} : Value.itemsFit items ty ↔ ∀ v ∈ items, v.fits ty := by
  induction items with
  | nil => simp [Value.itemsFit]
  | cons v items ih => rw [Value.itemsFit, Bool.and_eq_true, ih, List.forall_mem_cons]

theorem mkLiteral_list {items : List Value} (hitems : ∀ v ∈ items, v.fits ty) :
    mkLiteral (.list items) (.list ty) = .ok (.literal (.list items) (.list ty)) := by
  refine mkLiteral_eq_ok.2 ⟨?_, rfl⟩
  rw [Value.fits]
  exact itemsFit_iff.2 hitems

theorem mkCall_listContains (elem : Ty) {list needle : Expr} (hlist : list.ty = .list elem)
    (hneedle : elem.equatable needle.ty) :
    mkCall .listContains list [needle] = .ok (.call .listContains list [needle]) := by
  refine mkCall_eq_ok.2 ⟨?_, rfl⟩
  rw [hlist]
  exact hneedle

theorem uuidTest_eq_map (hty : property.ty.underlying = .uuid) (token : String) :
    (do mkBinary .equal (← mkLiteral (← Value.read s token .uuid) .uuid) property :
      Except Error Expr) =
      (Value.read s token .uuid).map fun u => .binary .equal (.literal u .uuid) property := by
  cases hread : Value.read s token .uuid with
  | error err => rfl
  | ok v =>
    obtain ⟨u, rfl, -⟩ := Value.of_read_uuid hread
    rw [ok_bind, mkLiteral_eq_ok.2 ⟨rfl, rfl⟩, ok_bind]
    exact mkBinary_eq_ok.2 ⟨beq_iff_eq.2 hty.symm, rfl⟩

theorem settles_membership (property : Expr) (value : Option String) :
    Settles s separator property.ty .oneOf value (membership s separator property value) := by
  have hneeds : ¬Operator.NeedsConstant property.ty .oneOf := fun h => h.ne_oneOf rfl
  have hconverts {raw : String} (huuids : property.ty.underlying = .uuid →
        ∀ token ∈ Text.split raw separator, ∃ u, Value.read s token .uuid = .ok u)
      (hconstants : ∀ name, property.ty.underlying = .enum name →
        ∀ token ∈ Text.split raw separator, ∃ c, Constant.read s name token = .ok c) :
      Converts s separator property.ty .oneOf (some raw) :=
    ⟨fun h => absurd h hneeds, fun _ hm => (Option.some_ne_none _ hm.symm).elim,
      fun _ => ⟨raw, rfl, huuids, hconstants⟩⟩
  have horders : Operator.Orders .oneOf = true → property.ty.isOrderable = true := by
    simp [Operator.Orders]
  cases value with
  | none => exact .refused .missingList
  | some raw =>
    unfold membership
    dsimp only
    -- Identifiers, constants of enumerations, and all other types.
    split
    · rename_i hty
      rw [mapM_congr fun token _ => uuidTest_eq_map hty token]
      cases htests : (Text.split raw separator).mapM fun token =>
          (Value.read s token .uuid).map fun u => Expr.binary .equal (.literal u .uuid) property with
      | error err =>
        -- The error is the one of the first token that is not read.
        obtain ⟨before, token, rest, htokens, -, htoken⟩ := mapM_eq_error.1 htests
        exact .refused (.identifier hty (by rw [htokens]; simp) (map_eq_error.1 htoken))
      | ok tests =>
        have hmade := mapM_eq_ok.1 htests
        have hbool : ∀ test ∈ tests, test.ty = .bool := fun test htest => by
          obtain ⟨token, htoken⟩ := exists_of_forall₂ hmade.flip htest
          obtain ⟨u, -, rfl⟩ := map_eq_ok.1 htoken
          rfl
        rw [ok_bind, fold_eq_ok (d := true) rfl hbool, ok_bind]
        have hnot (name : String) (h : property.ty.underlying = .enum name) : False := by
          cases hty.symm.trans h
        refine .made (hconverts (fun _ token htoken => ?_) fun name h => (hnot name h).elim) horders
        obtain ⟨test, htest⟩ := exists_of_forall₂ hmade htoken
        exact (map_eq_ok.1 htest).imp fun u hu => hu.1
    · rename_i name hty
      cases hconstants : (Text.split raw separator).mapM (Constant.read s name) with
      | error err =>
        obtain ⟨before, token, rest, htokens, -, htoken⟩ := mapM_eq_error.1 hconstants
        exact .refused (.enumConstant hty (by rw [htokens]; simp) htoken)
      | ok constants =>
        have hfits : ∀ v ∈ constants.map Value.enum, v.fits (.enum name) := by
          simp [Value.fits, Ty.underlying]
        rw [ok_bind, mkLiteral_list hfits, ok_bind,
          mkCall_listContains (.enum name) rfl (beq_iff_eq.2 hty.symm)]
        have hnot (h : property.ty.underlying = .uuid) : False := by cases hty.symm.trans h
        refine .made (hconverts (fun h => (hnot h).elim) fun name' hname token htoken => ?_) horders
        cases hty.symm.trans hname
        exact exists_of_forall₂ (mapM_eq_ok.1 hconstants) htoken
    · rename_i huuid henum
      have hmade : Converts s separator property.ty .oneOf (some raw) :=
        hconverts (fun h => absurd h huuid) fun name h => absurd h (henum name)
      have hstrings : ∀ v ∈ (Text.split raw separator).map Value.string, v.fits .string := by
        simp [Value.fits, Ty.underlying]
      rw [mkLiteral_list hstrings, ok_bind]
      split
      · rename_i htext
        have hstring : property.ty.underlying = .string := eq_of_beq htext
        rw [pure_eq_ok, ok_bind, mkCall_listContains .string rfl (beq_iff_eq.2 hstring.symm)]
        exact .made hmade horders
      · rw [mkCall_toText, ok_bind, mkCall_listContains .string rfl rfl]
        exact .made hmade horders

/-! ### Descriptors -/

/-- **The predicate of a filter whose path is resolved** is refused for a conversion, ends the program, or
lacks the order that the operator needs; otherwise it is made. -/
theorem settles_predicate {root : Param} {d : Descriptor}
    (hpath : resolve s (.param root) d.property = .ok property) (hty : property.ty.IsDeclared s)
    (hop : d.operator ≠ .none) :
    Settles s separator property.ty d.operator d.value (predicate s separator root d) := by
  unfold predicate
  rw [hpath, ok_bind]
  cases h : d.operator with
  | none => exact absurd h hop
  | equal | notEqual | less | lessOrEqual | greater | greaterOrEqual => exact settles_comparison hty rfl
  | startsWith | contains => exact settles_textMatch hty rfl
  | oneOf => exact settles_membership property d.value
  | isEmpty => exact settles_emptiness hty (.inl rfl)
  | isNotEmpty =>
    refine (settles_emptiness hty (.inr rfl)).bind fun e he => ⟨_, mkNot_emptiness he⟩

end Filter

end RecordQuery
