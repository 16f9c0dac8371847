import RecordQuery.Text.Printable

/-!
# Quoted text

* `quotedChars`, `quoted`: a text in quotes, with an escape for each character that does not stand
  for itself.
-/

namespace RecordQuery.Text

/-- A character inside quotes; one that cannot be shown is given by its code point. -/
def escape (c : Char) : List Char :=
  match c with
  | '"' => ['\\', '"']
  | '\\' => ['\\', '\\']
  | '\n' => ['\\', 'n']
  | '\r' => ['\\', 'r']
  | '\t' => ['\\', 't']
  | '\x00' => ['\\', '0']
  | c =>
    if isPrintable c then [c] else '\\' :: 'u' :: '\x7b' :: (Nat.toDigits 16 c.toNat ++ ['\x7d'])

def quotedChars (cs : List Char) : List Char := '"' :: (cs.flatMap escape ++ ['"'])

def quoted (s : String) : String := .ofList (quotedChars s.toList)

end RecordQuery.Text
