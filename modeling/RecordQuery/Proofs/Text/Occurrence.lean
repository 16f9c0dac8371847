import Mathlib.Data.List.Infix
import RecordQuery.Text.Pieces

/-!
# Where one text occurs in another

A text begins with, ends with or contains another if its characters do.

* `startsWith_iff`, `endsWith_iff`, `contains_iff` : the tests as prefixes, suffixes and infixes.
-/

namespace RecordQuery.Text

variable {s t : String}

theorem startsWith_iff : startsWith s t ↔ t.toList <+: s.toList := List.isPrefixOf_iff_prefix

theorem endsWith_iff : endsWith s t ↔ t.toList <:+ s.toList := List.isSuffixOf_iff_suffix

theorem containsChars_iff {needle cs : List Char} : containsChars needle cs ↔ needle <:+: cs := by
  induction cs with
  | nil => rw [containsChars, List.isEmpty_iff, List.infix_nil]
  | cons c cs ih =>
    rw [containsChars, Bool.or_eq_true, List.isPrefixOf_iff_prefix, ih, List.infix_cons_iff]

theorem contains_iff : contains s t ↔ t.toList <:+: s.toList := containsChars_iff

end RecordQuery.Text
