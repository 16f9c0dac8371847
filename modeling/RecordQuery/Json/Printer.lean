import RecordQuery.Json.Basic
import RecordQuery.Number.Decimal

/-!
# Writing JSON values

* `Json.quotedChars`: a string in quotes, with the escapes that the format requires and no others;
* `Json.Number.chars`: a number; a float that is not finite is written as null;
* `Json.chars`, `Json.compact`: a value without blanks;
* `Json.prettyChars`, `Json.pretty`: a value over several lines, two blanks for each level.
-/

namespace RecordQuery.Json

def escape (c : Char) : List Char :=
  match c with
  | '"' => ['\\', '"']
  | '\\' => ['\\', '\\']
  | '\n' => ['\\', 'n']
  | '\r' => ['\\', 'r']
  | '\t' => ['\\', 't']
  | '\x08' => ['\\', 'b']
  | '\x0c' => ['\\', 'f']
  | c =>
    if c.toNat < 0x20 then
      ['\\', 'u', '0', '0', Nat.digitChar (c.toNat / 16), Nat.digitChar (c.toNat % 16)]
    else [c]

def quotedChars (s : String) : List Char := '"' :: (s.toList.flatMap escape ++ ['"'])

/-- Floats keep a point, and have an exponent from 1e16 on and below 1e-5. -/
def floatStyle : Decimal.Style := ⟨.even, true, fun e => decide (-5 ≤ e ∧ e < 16)⟩

def Number.chars : Number → List Char
  | .integer n => Integer.chars n
  | .float (.finite negative units _) => Decimal.render floatStyle negative units
  | .float _ => "null".toList

def commaSeparated : List (List Char) → List Char
  | [] => []
  | [part] => part
  | part :: parts => part ++ ',' :: commaSeparated parts

mutual

def chars : Json → List Char
  | .null => "null".toList
  | .bool b => (if b then "true" else "false").toList
  | .number n => n.chars
  | .string s => quotedChars s
  | .array items => '[' :: (commaSeparated (itemChars items) ++ [']'])
  | .object entries => '\x7b' :: (commaSeparated (entryChars entries) ++ ['\x7d'])

def itemChars : List Json → List (List Char)
  | [] => []
  | item :: items => item.chars :: itemChars items

def entryChars : List (String × Json) → List (List Char)
  | [] => []
  | (key, item) :: entries => (quotedChars key ++ ':' :: item.chars) :: entryChars entries

end

def compact (j : Json) : String := .ofList j.chars

/-! ## Over several lines -/

def lineBreak (level : Nat) : List Char := '\n' :: List.replicate (2 * level) ' '

/-- The parts on lines of their own between the brackets; no parts leave the brackets closed. -/
def bracketed (level : Nat) (opening closing : Char) (parts : List (List Char)) : List Char :=
  if parts.isEmpty then [opening, closing]
  else opening :: (commaSeparated (parts.map (lineBreak (level + 1) ++ ·)) ++
    lineBreak level ++ [closing])

mutual

/-- A value over several lines, the first of which is indented already. -/
def prettyChars (level : Nat) : Json → List Char
  | .array items => bracketed level '[' ']' (prettyItems (level + 1) items)
  | .object entries => bracketed level '\x7b' '\x7d' (prettyEntries (level + 1) entries)
  | .null => "null".toList
  | .bool b => (if b then "true" else "false").toList
  | .number n => n.chars
  | .string s => quotedChars s

def prettyItems (level : Nat) : List Json → List (List Char)
  | [] => []
  | item :: items => item.prettyChars level :: prettyItems level items

def prettyEntries (level : Nat) : List (String × Json) → List (List Char)
  | [] => []
  | (key, item) :: entries =>
    (quotedChars key ++ ':' :: ' ' :: item.prettyChars level) :: prettyEntries level entries

end

def pretty (j : Json) : String := .ofList (j.prettyChars 0)

end RecordQuery.Json
