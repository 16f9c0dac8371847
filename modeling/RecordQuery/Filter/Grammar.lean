import RecordQuery.Expr.Basic
import RecordQuery.Text.Blank
import RecordQuery.Text.Pieces

/-!
# Text filters

A text filter holds segments with the word `or` between them. Blanks do not count, but for those in
double quotes; quotes do not belong to a segment. The letters `or` separate also inside a word. A
`%` at an end of a segment stands for any text.

* `Filter.groups`, `Filter.segments`: the segments of a text;
* `Filter.Pattern`: what a segment asks of a text.
-/

namespace RecordQuery.Filter

/-! ## Segments -/

def isSeparator (c d : Char) : Bool := (c == 'o' || c == 'O') && (d == 'r' || d == 'R')

/-- The groups of kept characters between separators; `quoted` tells whether quotes are open. -/
def groups (quoted : Bool) : List Char → List (List Char)
  | [] => [[]]
  | c :: cs =>
    if !quoted && Text.isBlank c then groups quoted cs
    else if c == '"' then groups (!quoted) cs
    else
      match cs with
      | [] => [[c]]
      | d :: cs =>
        if !quoted && isSeparator c d then [] :: groups quoted cs
        else Text.consHead c (groups quoted (d :: cs))

def dropEmptyLast (gs : List (List Char)) : List (List Char) :=
  if gs.getLast? = some [] then gs.dropLast else gs

/-- The segments of a text; only an empty last one is left out. -/
def segments (text : String) : List String := (dropEmptyLast (groups false text.toList)).map .ofList

/-! ## Patterns -/

inductive Pattern
  | contains (needle : String)
  | startsWith (needle : String)
  | endsWith (needle : String)
  | equals (needle : String)
  deriving DecidableEq, Repr

namespace Pattern

/-- The pattern of a segment; a lone `%` asks for nothing. -/
def ofSegment (segment : String) : Pattern :=
  let cs := segment.toList
  match cs.head? == some '%', cs.getLast? == some '%' with
  | true, true => .contains (.ofList cs.tail.dropLast)
  | true, false => .endsWith (.ofList cs.tail)
  | false, true => .startsWith (.ofList cs.dropLast)
  | false, false => .equals segment

def method : Pattern → Method
  | .contains _ => .contains
  | .startsWith _ => .startsWith
  | .endsWith _ => .endsWith
  | .equals _ => .equals

def needle : Pattern → String
  | .contains needle | .startsWith needle | .endsWith needle | .equals needle => needle

end Pattern

end RecordQuery.Filter
