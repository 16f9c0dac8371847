/-!
# White space

* `isBlank`: the characters with the property `White_Space`;
* `trimChars`, `trim`: a text without the blanks at its two ends.

U+0085, U+00A0, U+2028 and U+3000 are blank; the zero-width U+200B and U+FEFF are not.
-/

namespace RecordQuery.Text

/-- The characters with the Unicode property `White_Space`. -/
def isBlank (c : Char) : Bool :=
  let n := c.toNat
  (9 ≤ n && n ≤ 13) || n == 0x20 || n == 0x85 || n == 0xA0 || n == 0x1680 ||
    (0x2000 ≤ n && n ≤ 0x200A) || n == 0x2028 || n == 0x2029 || n == 0x202F || n == 0x205F ||
    n == 0x3000

def trimChars (cs : List Char) : List Char :=
  ((cs.dropWhile isBlank).reverse.dropWhile isBlank).reverse

theorem length_trimChars_le (cs : List Char) : (trimChars cs).length ≤ cs.length := by
  have h := (List.dropWhile_sublist isBlank (l := cs)).length_le
  have h' := (List.dropWhile_sublist isBlank (l := (cs.dropWhile isBlank).reverse)).length_le
  simp only [trimChars, List.length_reverse] at h' ⊢
  omega

def trim (s : String) : String := .ofList (trimChars s.toList)

end RecordQuery.Text
