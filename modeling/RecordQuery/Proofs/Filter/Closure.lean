import RecordQuery.Proofs.Filter.Refusal
import RecordQuery.Proofs.Filter.Wildcards
import RecordQuery.Proofs.Schema.Declarations

/-!
# Filters over loaded catalogs

A loaded catalog is closed: its field types are declared, so neither a path nor a filter over one of its
record types meets a name that it does not declare.

* `resolve_error_code` : the only error of a path;
* `predicate_error_code`, `compile_error_code` : the errors of filters;
* `compileText_error_code` : the errors of text filters;
* `closed_of_read` : what a loaded catalog promises.
-/

namespace RecordQuery.Filter
open RecordQuery.Expr

variable {s : Schema} {separator path text : String} {o : Options} {id : Nat} {p : Param} {root : Ty}
  {property : Expr} {err : Error}

/-! ## Errors over a closed catalog -/

section Closed
variable (hs : s.HasFieldsIn s)
include hs

/-- From a declared type a path leads to a declared type, or it is not resolved. -/
theorem resolve_yields_isDeclared (start : Expr) (hstart : start.ty.IsDeclared s) (path : String) :
    Yields (fun e : Expr => e.ty.IsDeclared s)
      (fun err => ∃ segment onType, err = .unresolved path segment onType) (resolve s start path) :=
  resolve_yields hs (fun _ _ hty hname => hty.exists_record hname) hstart

theorem resolve_error_code (start : Expr) (hstart : start.ty.IsDeclared s) (h : resolve s start path = .error err) :
    err.code = "PathResolution" := by
  obtain ⟨segment, onType, rfl⟩ := (resolve_yields_isDeclared hs start hstart path).of_eq_error h
  rfl

theorem predicate_error_code {d : Descriptor} (hp : p.ty.IsDeclared s) (hop : d.operator ≠ .none)
    (h : predicate s separator p d = .error err) :
    err.code ∈ ["PathResolution", "ValueConversion", "Calendar", "TypeMismatch"] := by
  cases hpath : resolve s (.param p) d.property with
  | error err' =>
    cases h.symm.trans (predicate_of_error hpath)
    rw [resolve_error_code hs (.param p) hp hpath]
    exact List.mem_cons_self
  | ok property =>
    have hty : property.ty.IsDeclared s :=
      (resolve_yields_isDeclared hs (.param p) hp d.property).of_eq_ok hpath
    have hsettles : Settles s separator property.ty d.operator d.value (predicate s separator p d) :=
      settles_predicate hpath hty hop
    rw [h] at hsettles
    exact List.mem_cons_of_mem _ (hsettles.code_mem hty)

theorem compile_error_code {ds : List Descriptor} (hroot : root.IsDeclared s)
    (h : compile s o id root ds = .error err) :
    err.code ∈ ["PathResolution", "ValueConversion", "Calendar", "TypeMismatch"] := by
  obtain ⟨before, d, rest, hds, -, hd⟩ := compile_eq_error.1 h
  have hmem : d ∈ applied ds := by
    rw [hds]
    exact List.mem_append_right _ List.mem_cons_self
  have hop : d.operator ≠ .none := by simpa using (List.mem_filter.1 hmem).2
  exact predicate_error_code hs hroot hop hd

theorem compileText_error_code (hroot : root.IsDeclared s)
    (h : compileText s o id root path text = .error err) :
    err.code ∈ ["PathResolution", "TypeMismatch"] := by
  by_cases hsegments : segments text = []
  · cases h.symm.trans (compileText_of_segments_eq_nil hsegments)
  cases hpath : resolve s (.param (rootParam o id root)) path with
  | error err' =>
    cases h.symm.trans (compileText_of_error hsegments hpath)
    have hcode : err.code = "PathResolution" :=
      resolve_error_code hs (.param (rootParam o id root)) hroot hpath
    rw [hcode]
    exact List.mem_cons_self
  | ok property =>
    cases hty : property.ty.isText with
    | true =>
      obtain ⟨l, hl, -⟩ := exists_compileText_fits hsegments hpath hty
      cases h.symm.trans hl
    | false =>
      obtain ⟨operation, found, hmismatch⟩ := compileText_of_not_isText hsegments hpath hty
      cases h.symm.trans hmismatch
      exact List.mem_cons_of_mem _ List.mem_cons_self

end Closed

/-! ## Loaded catalogs -/

/-- **A loaded catalog is closed.** It is valid, and none of its field types has a nullable type directly
inside another. Over a record type that it declares, nullable or not, no path, list of filters or text
filter fails because a name is not declared. -/
theorem closed_of_read (h : Schema.read text = .ok s) :
    s.validate = .ok () ∧ (∀ r ∈ s.records, ∀ f ∈ r.fields, f.ty.Flat) ∧
    ∀ root name, root = .record name ∨ root = .nullable (.record name) → s.record? name ≠ none →
      (∀ start : Expr, start.ty = root → ∀ path err, resolve s start path = .error err →
        err.code ≠ "Schema") ∧
      (∀ o id ds err, compile s o id root ds = .error err → err.code ≠ "Schema") ∧
      ∀ o id path filter err, compileText s o id root path filter = .error err →
        err.code ≠ "Schema" := by
  have hs : s.HasFieldsIn s := Schema.hasFieldsIn_of_read h
  refine ⟨hs.validate, hs.flat, fun root name hroot hname => ?_⟩
  have hrecord : root.recordName? = some name := by
    rcases hroot with rfl | rfl <;> rfl
  have hdeclared : root.IsDeclared s := .of_recordName hrecord hname
  refine ⟨?_, ?_, ?_⟩
  · rintro start rfl path err herr
    rw [resolve_error_code hs start hdeclared herr]
    decide
  · intro o id ds err herr hcode
    have hmem := compile_error_code hs hdeclared herr
    rw [hcode] at hmem
    exact absurd hmem (by decide)
  · intro o id path filter err herr hcode
    have hmem := compileText_error_code hs hdeclared herr
    rw [hcode] at hmem
    exact absurd hmem (by decide)

/-! ## A catalog with names that are used before they are declared -/

/-- Stops refer to lines, which are declared later and refer back. -/
def stopsText : String :=
  r#"{"records":[{"name":"Stop","fields":[{"name":"line","type":"Line??"}]},"# ++
    r#"{"name":"Line","fields":[{"name":"end","type":"Stop"}]}]}"#

def stops : Schema :=
  ⟨[⟨"Stop", [⟨"line", .nullable (.record "Line")⟩]⟩, ⟨"Line", [⟨"end", .record "Stop"⟩]⟩], []⟩

theorem read_stopsText : Schema.read stopsText = .ok stops := by decide +kernel

/-- A filter that asks for the line at the end of a line fails, but not because a name is not declared. -/
theorem closed_stops :
    Schema.read stopsText = .ok stops ∧ stops.validate = .ok () ∧
    ∃ err, compile stops {} 1 (.nullable (.record "Stop")) [⟨"line.end.line", .equal, some "7"⟩] =
      .error err ∧ err.code ≠ "Schema" := by
  obtain ⟨hvalid, -, hroots⟩ := closed_of_read read_stopsText
  obtain ⟨-, hcompile, -⟩ := hroots (.nullable (.record "Stop")) "Stop" (.inr rfl) nofun
  have hfails : ∃ err, compile stops {} 1 (.nullable (.record "Stop"))
      [⟨"line.end.line", .equal, some "7"⟩] = .error err := ⟨_, rfl⟩
  obtain ⟨err, herr⟩ := hfails
  exact ⟨read_stopsText, hvalid, err, herr, hcompile _ _ _ _ herr⟩

end RecordQuery.Filter
