/-!
# Pieces of a text

* `contains`, `startsWith`, `endsWith`: where one text occurs in another;
* `splitChars`, `split`: the pieces between the occurrences of a separator, left to right;
* `joined`: texts with a separator between them;
* `sameLetters`: equality that ignores the case of ASCII letters.
-/

namespace RecordQuery.Text

/-! ## Occurrence -/

/-- Some suffix of `cs` starts with `needle`. -/
def containsChars (needle : List Char) : List Char → Bool
  | [] => needle.isEmpty
  | c :: cs => needle.isPrefixOf (c :: cs) || containsChars needle cs

def contains (s needle : String) : Bool := containsChars needle.toList s.toList

def startsWith (s head : String) : Bool := head.toList.isPrefixOf s.toList

def endsWith (s tail : String) : Bool := tail.toList.isSuffixOf s.toList

/-! ## Splitting -/

def consHead (c : Char) : List (List Char) → List (List Char)
  | [] => [[c]]
  | p :: ps => (c :: p) :: ps

/-- The pieces of the characters after the next `skip` ones, which belong to a separator. -/
def splitFrom (sep : List Char) : Nat → List Char → List (List Char)
  | _, [] => [[]]
  | skip + 1, _ :: cs => splitFrom sep skip cs
  | 0, c :: cs =>
    if sep.isPrefixOf (c :: cs) then [] :: splitFrom sep (sep.length - 1) cs
    else consHead c (splitFrom sep 0 cs)

/-- The pieces between the occurrences of `sep`; there is always one piece more than occurrences. The
empty separator occurs in front of each character and at the end. -/
def splitChars (sep cs : List Char) : List (List Char) :=
  if sep.isEmpty then [] :: cs.map ([·]) ++ [[]] else splitFrom sep 0 cs

def split (s sep : String) : List String := (splitChars sep.toList s.toList).map .ofList

def joined (sep : String) : List String → String
  | [] => ""
  | [s] => s
  | s :: t :: rest => s ++ sep ++ joined sep (t :: rest)

/-! ## Letters -/

/-- The two texts are equal up to the case of ASCII letters. -/
def sameLetters (s t : String) : Bool :=
  s.toList.map Char.toLower == t.toList.map Char.toLower

end RecordQuery.Text
