import RecordQuery.Proofs.Filter.Agreement
import RecordQuery.Proofs.Value.Writing

/-!
# Membership in a list

A filter for the values of a list is true on a row exactly if the value of its property is in the list.
It is false, and never null, on the other rows.

* `equal_uuid`, `equal_enum` : identifiers and constants of enumerations that are equal;
* `EnumType.Denotes`, `Constant.denotes_iff_of_read` : the ordinal that a token denotes;
* `Lists` : the values of a type that a list of tokens holds;
* `Membership.exists_eval` : what is asked for a property that is one of a list;
* `predicate_oneOf` : the predicate of the filter.

Where an enumeration declares a name again, a token denotes the ordinal of the first declaration.
-/

namespace RecordQuery

/-! ## Equal identifiers and constants -/

theorem Uuid.compare_eq_iff {a b : Uuid} : a.compare b = .eq ↔ a = b := by
  constructor
  · intro h
    have hdigits : a.digits = b.digits := Std.LawfulEqCmp.compare_eq_iff_eq.1 h
    cases a
    cases b
    cases hdigits
    rfl
  · rintro rfl
    show List.compareLex Ord.compare a.digits a.digits = .eq
    exact Std.ReflCmp.compare_self

theorem Value.equal_uuid {a b : Uuid} : (Value.uuid a).equal (.uuid b) = true ↔ a = b := by
  simp only [equal, eqv, compare, Bool.or_eq_true, beq_iff_eq, Option.some.injEq,
    Uuid.compare_eq_iff, or_self]

/-- The names of constants do not count. -/
theorem Value.equal_enum {a b : Constant} :
    (Value.enum a).equal (.enum b) = true ↔ a.ordinal = b.ordinal := by
  simp only [equal, eqv, compare, Bool.or_eq_true, beq_iff_eq, Option.some.injEq]
  refine or_iff_left_of_imp fun h => ?_
  exact Int64.toInt_inj.1 (Std.LawfulEqCmp.compare_eq_iff_eq.1 h)

/-! ## Tokens -/

/-- The token denotes the ordinal, as an integer or else by the name of a constant. -/
inductive EnumType.Denotes (e : EnumType) (token : String) : Int64 → Prop
  | integer {n : Int64} (h : Integer.read? (Text.trim token).toList = some n) : e.Denotes token n
  | name {n : Int64} (hname : Integer.read? (Text.trim token).toList = none)
      (h : e.ordinalOf? (Text.trim token) = some n) : e.Denotes token n

/-- A token that is read as a constant denotes the ordinal of this constant, and no other one. -/
theorem Constant.denotes_iff_of_read {s : Schema} {name token : String} {e : EnumType} {c : Constant}
    {n : Int64} (he : s.enumeration? name = some e) (h : Constant.read s name token = .ok c) :
    e.Denotes token n ↔ c.ordinal = n := by
  cases hinteger : Integer.read? (Text.trim token).toList with
  | some ordinal =>
    rw [read_of_ordinal token he hinteger] at h
    cases h
    constructor
    · rintro (hn | ⟨hnone, -⟩)
      · exact Option.some.inj (hinteger.symm.trans hn)
      · cases hinteger.symm.trans hnone
    · rintro rfl
      exact .integer hinteger
  | none =>
    cases hordinal : e.ordinalOf? (Text.trim token) with
    | none =>
      unfold read at h
      rw [Schema.enumeration_eq_ok.2 he, ok_bind] at h
      dsimp only at h
      rw [hinteger] at h
      dsimp only at h
      rw [hordinal] at h
      cases h
    | some ordinal =>
      rw [read_of_name token he hinteger hordinal] at h
      cases h
      constructor
      · rintro (hn | ⟨-, hn⟩)
        · cases hinteger.symm.trans hn
        · exact Option.some.inj (hordinal.symm.trans hn)
      · rintro rfl
        exact .name hinteger hordinal

theorem Value.of_read_uuid {s : Schema} {token : String} {v : Value}
    (h : Value.read s token .uuid = .ok v) :
    ∃ u, v = .uuid u ∧ Uuid.read (Text.trim token).toList = .ok u := by
  rw [Text.trim, String.toList_ofList]
  rw [read] at h
  split at h
  · rename_i u hu
    exact ⟨u, (Except.ok.inj h).symm, hu⟩
  · cases h

namespace Filter
open RecordQuery.Expr

/-- The list of tokens holds the value of the type: an identifier by what a token is read as, a constant
by its ordinal, and any other value by its text. -/
inductive Lists (s : Schema) (tokens : List String) (ty : Ty) : Value → Prop
  | identifier {token : String} {u : Uuid} (hty : ty.underlying = .uuid) (hmem : token ∈ tokens)
      (h : Uuid.read (Text.trim token).toList = .ok u) : Lists s tokens ty (.uuid u)
  | constant {token name : String} {e : EnumType} {c : Constant} (hty : ty.underlying = .enum name)
      (he : s.enumeration? name = some e) (hmem : token ∈ tokens) (h : e.Denotes token c.ordinal) :
      Lists s tokens ty (.enum c)
  | text {v : Value} (huuid : ty.underlying ≠ .uuid) (henum : ∀ name, ty.underlying ≠ .enum name)
      (hnull : v ≠ .null) (hmem : v.text ∈ tokens) : Lists s tokens ty v

variable {s : Schema} {separator raw : String} {property e : Expr} {p : Param} {arg v : Value}

/-! ## Tests for the values of a list -/

theorem exists_eval_joined_or {tests : List Expr}
    (h : ∀ x ∈ tests, ∃ b, x.eval p arg = .ok (.bool b)) :
    ∃ b, ((joined .or tests).getD (.literal (.bool false) .bool)).eval p arg = .ok (.bool b) ∧
      (b = true ↔ ∃ x ∈ tests, x.eval p arg = .ok (.bool true)) := by
  cases tests with
  | nil => exact ⟨false, eval_literal _ _, by simp⟩
  | cons x xs =>
    obtain ⟨⟨a, ha⟩, hxs⟩ := List.forall_mem_cons.1 h
    obtain ⟨b, hb, hiff⟩ := exists_eval_foldl_bool (show BinaryOp.or.decisive? = some true from rfl) ha hxs
    refine ⟨b, hb, ?_⟩
    rw [hiff, List.exists_mem_cons_iff, ha, Except.ok.injEq, Value.bool.injEq]

/-- Identifiers are compared one by one, from left to right. -/
theorem exists_eval_uuids {tokens : List String} {tests : List Expr}
    (htests : List.Forall₂ (fun token test => ∃ u, Value.read s token .uuid = .ok u ∧
      test = .binary .equal (.literal u .uuid) property) tokens tests)
    (hread : property.eval p arg = .ok v) (hty : property.ty.underlying = .uuid)
    (hconf : v.Conforms s .uuid) :
    ∃ b, ((joined .or tests).getD (.literal (.bool false) .bool)).eval p arg = .ok (.bool b) ∧
      (b = true ↔ Lists s tokens property.ty v) := by
  have htest (u : Value) : (Expr.binary .equal (.literal u .uuid) property).eval p arg =
      .ok (.bool (u.equal v)) := eval_comparison rfl (eval_literal _ _) hread
  have htruth : ∀ x ∈ tests, ∃ b, x.eval p arg = .ok (.bool b) := fun x hx => by
    obtain ⟨token, u, -, rfl⟩ := exists_of_forall₂ htests.flip hx
    exact ⟨_, htest u⟩
  obtain ⟨b, hb, hiff⟩ := exists_eval_joined_or htruth
  refine ⟨b, hb, hiff.trans ⟨?_, ?_⟩⟩
  · rintro ⟨x, hx, heval⟩
    obtain ⟨token, htoken, u, hu, rfl⟩ := exists_mem_of_forall₂ htests.flip hx
    obtain ⟨w, rfl, hw⟩ := Value.of_read_uuid hu
    rw [htest, Except.ok.injEq, Value.bool.injEq] at heval
    cases hconf with
    | null => cases heval
    | uuid u =>
      rw [Value.equal_uuid] at heval
      exact .identifier hty htoken (heval ▸ hw)
  · intro hlists
    cases hlists with
    | @identifier token u _ hmem hu =>
      obtain ⟨x, hx, w, hw, rfl⟩ := exists_mem_of_forall₂ htests hmem
      obtain ⟨u', rfl, hu'⟩ := Value.of_read_uuid hw
      refine ⟨_, hx, ?_⟩
      rw [htest, Value.equal_uuid.2 (Except.ok.inj (hu'.symm.trans hu))]
    | constant henum => cases hty.symm.trans henum
    | text huuid => exact absurd hty huuid

theorem eval_listContains {items : List Value} {ty : Ty} {needle : Expr}
    (h : needle.eval p arg = .ok v) :
    (Expr.call .listContains (.literal (.list items) ty) [needle]).eval p arg =
      .ok (.bool (items.any (·.equal v))) :=
  eval_call_singleton (eval_literal _ _) h

/-- The list holds the constants that have the ordinal of the value. -/
theorem any_equal_constants_iff {tokens : List String} {constants : List Constant} {name : String}
    (hconstants : List.Forall₂ (fun token c => Constant.read s name token = .ok c) tokens constants)
    (hty : property.ty.underlying = .enum name) (hconf : v.Conforms s (.enum name)) :
    (constants.map Value.enum).any (·.equal v) = true ↔ Lists s tokens property.ty v := by
  rw [List.any_map, List.any_eq_true]
  constructor
  · rintro ⟨c, hc, hequal⟩
    obtain ⟨token, htoken, hread⟩ := exists_mem_of_forall₂ hconstants.flip hc
    obtain ⟨e, he, -⟩ := Constant.has_of_read hread
    cases hconf with
    | null => cases hequal
    | enum c' =>
      have hordinal : c.ordinal = c'.ordinal := Value.equal_enum.1 hequal
      exact .constant hty he htoken ((Constant.denotes_iff_of_read he hread).2 hordinal)
  · intro hlists
    cases hlists with
    | identifier huuid => cases hty.symm.trans huuid
    | @constant token name' e c henum he hmem hdenotes =>
      cases hty.symm.trans henum
      obtain ⟨c', hc', hread⟩ := exists_mem_of_forall₂ hconstants hmem
      exact ⟨c', hc', Value.equal_enum.2 ((Constant.denotes_iff_of_read he hread).1 hdenotes)⟩
    | text _ henum => exact absurd hty (henum name)

/-- Null is no text, so a list of texts does not hold it. -/
theorem any_equal_texts_iff {tokens : List String} {needle : Value}
    (hneedle : v = .null ∧ needle = .null ∨ v ≠ .null ∧ needle = .string v.text) :
    (tokens.map Value.string).any (·.equal needle) = true ↔ v ≠ .null ∧ v.text ∈ tokens := by
  rw [List.any_map, List.any_eq_true]
  rcases hneedle with ⟨rfl, rfl⟩ | ⟨hne, rfl⟩
  · exact iff_of_false (fun ⟨_, _, hequal⟩ => by cases hequal) fun h => h.1 rfl
  · simp [hne, Value.equal_string]

theorem lists_iff_of_other {tokens : List String} {ty : Ty} (huuid : ty.underlying ≠ .uuid)
    (henum : ∀ name, ty.underlying ≠ .enum name) :
    Lists s tokens ty v ↔ v ≠ .null ∧ v.text ∈ tokens := by
  constructor
  · intro hlists
    cases hlists with
    | identifier hty => exact absurd hty huuid
    | constant hty => exact absurd hty (henum _)
    | text _ _ hnull hmem => exact ⟨hnull, hmem⟩
  · rintro ⟨hnull, hmem⟩
    exact .text huuid henum hnull hmem

/-- **What is asked for a property that is one of a list** is true or false, and true exactly if the list
holds the value. -/
theorem Membership.exists_eval (h : Membership s separator property raw e)
    (hread : property.eval p arg = .ok v) (hconf : v.Conforms s property.ty) :
    ∃ b, e.eval p arg = .ok (.bool b) ∧
      (b = true ↔ Lists s (Text.split raw separator) property.ty v) := by
  cases h with
  | uuid hty htests => exact exists_eval_uuids htests hread hty (hconf.of_underlying_eq hty)
  | enum hty hconstants =>
    refine ⟨_, eval_listContains hread, ?_⟩
    exact any_equal_constants_iff hconstants hty (hconf.of_underlying_eq hty)
  | text htext =>
    have hty : property.ty.underlying = .string := eq_of_beq htext
    have hneedle : v = .null ∧ v = .null ∨ v ≠ .null ∧ v = .string v.text := by
      cases hconf.of_underlying_eq hty with
      | null => exact .inl ⟨rfl, rfl⟩
      | string t => exact .inr ⟨nofun, rfl⟩
    refine ⟨_, eval_listContains hread, ?_⟩
    rw [any_equal_texts_iff hneedle, lists_iff_of_other (by rw [hty]; nofun) (by rw [hty]; nofun)]
  | other huuid henum htext =>
    obtain ⟨needle, heval, hneedle⟩ := eval_toText hread
    refine ⟨_, eval_listContains heval, ?_⟩
    rw [any_equal_texts_iff hneedle, lists_iff_of_other huuid henum]

/-! ## Filters for the values of a list -/

/-- **What a filter for the values of a list means.** On a row where its path reads a value of the
property's type the predicate is true or false, and it is true exactly if the list holds the value. The
tokens of the list are the pieces of the descriptor's value. -/
theorem predicate_oneOf {root : Param} {path : String}
    (h : predicate s separator root ⟨path, .oneOf, some raw⟩ = .ok e) :
    ∃ property, resolve s (.param root) path = .ok property ∧
      ∀ row v, row.readPath path = .ok v → v.Conforms s property.ty →
        ∃ b, e.eval root row = .ok (.bool b) ∧
          (b = true ↔ Lists s (Text.split raw separator) property.ty v) := by
  obtain ⟨property, hproperty, hasks⟩ := of_predicate_eq_ok h
  refine ⟨property, hproperty, fun row v hv hconf => ?_⟩
  have hread : property.eval root row = .ok v := (eval_resolve_param hproperty).trans hv
  cases hasks with
  | membership _ hraw hmembership =>
    cases hraw
    exact hmembership.exists_eval hread hconf
  | comparison hop => cases hop
  | textCall hm => cases hm
  | callOnTexts hm => cases hm
  | isEmpty hop => cases hop
  | isNotEmpty hop => cases hop

/-! ## A level that is declared twice -/

/-- Levels of alarms, one of which is given two ordinals. -/
def alarms : Schema :=
  ⟨[⟨"Alarm", [⟨"Level", .nullable (.enum "Level")⟩]⟩], [⟨"Level", [("low", 1), ("low", 2)]⟩]⟩

def alarm : Param := ⟨1, "x", .record "Alarm"⟩

def alarmLevel : Expr := .field (.param alarm) "Level" (.nullable (.enum "Level"))

/-- The filter finds the alarms of level 7, which is not declared. -/
theorem predicate_oneOf_alarms :
    ∃ e, predicate alarms "," alarm ⟨"Level", .oneOf, some " 7 "⟩ = .ok e ∧
      e.eval alarm (.record [("Level", .enum ⟨7, none⟩)]) = .ok (.bool true) ∧
      e.eval alarm (.record []) = .ok (.bool false) := by
  have hmade : ∃ e, predicate alarms "," alarm ⟨"Level", .oneOf, some " 7 "⟩ = .ok e := ⟨_, rfl⟩
  obtain ⟨e, he⟩ := hmade
  obtain ⟨property, hproperty, hrows⟩ := predicate_oneOf he
  cases (show Except.ok alarmLevel = .ok property from hproperty)
  have hsplit : Text.split " 7 " "," = [" 7 "] := by decide +kernel
  rw [hsplit] at hrows
  refine ⟨e, he, ?_, ?_⟩
  · have hconf : (Value.enum ⟨7, none⟩).Conforms alarms alarmLevel.ty := .nullable (.enum _ _)
    obtain ⟨b, hb, hlists⟩ := hrows (.record [("Level", .enum ⟨7, none⟩)]) (.enum ⟨7, none⟩) rfl hconf
    have hseven : (⟨"Level", [("low", 1), ("low", 2)]⟩ : EnumType).Denotes " 7 " 7 :=
      .integer (by decide +kernel)
    rw [hb, hlists.2 (.constant rfl rfl (by simp) hseven)]
  · obtain ⟨b, hb, hlists⟩ := hrows (.record []) .null rfl (.null _)
    have hnot : b ≠ true := fun htrue => by
      cases hlists.1 htrue with
      | text _ henum => exact henum "Level" rfl
    rw [hb, Bool.eq_false_iff.2 hnot]

/-- An alarm of the second ordinal of `low` is not found by the name, which denotes the first one. -/
theorem alarmsLow_second :
    ∃ low, predicate alarms "," alarm ⟨"Level", .oneOf, some "low"⟩ = .ok low ∧
      (∃ token ∈ Text.split "low" ",", Integer.read? (Text.trim token).toList = none ∧
        ∃ level ∈ alarms.enums, (Text.trim token, 2) ∈ level.constants) ∧
      (Value.record [("Level", .enum ⟨2, some "low"⟩)]).readPath "Level" =
        .ok (.enum ⟨2, some "low"⟩) ∧
      (Value.enum ⟨2, some "low"⟩).Conforms alarms (.nullable (.enum "Level")) ∧
      low.eval alarm (.record [("Level", .enum ⟨2, some "low"⟩)]) = .ok (.bool false) := by
  refine ⟨_, rfl, ⟨"low", ?_, ?_, _, List.mem_singleton_self _, ?_⟩, rfl, .nullable (.enum _ _), rfl⟩
  · decide +kernel
  · decide +kernel
  · decide +kernel

end Filter

end RecordQuery
