import RecordQuery.Toml.Scalar

/-!
# Reading TOML documents

* `Toml.readLine?`, `Toml.readBlock?`: the rest of a quoted text on one line, or over several;
* `Toml.readPath?`, `Toml.readValue?`: a dotted key, and a value;
* `Toml.read?`: the entries of a document.

Paths have fewer keys, and containers lie less deep, than `limit`. The other readers take one unit
of fuel for each step inwards or onwards, and the length of the text is fuel enough.
-/

namespace RecordQuery.Toml

/-- The bound on the keys of a path and on the depth of containers. -/
def limit : Nat := 80

/-! ## Blanks and comments -/

def isSpace (c : Char) : Bool := c == ' ' || c == '\t'

def skipSpace (cs : List Char) : List Char := cs.dropWhile isSpace

def isText (c : Char) : Bool := c == '\t' || (0x20 ≤ c.toNat && c.toNat != 0x7F)

/-- The first of the characters is a space or a line break, or belongs to one. -/
def isGap (c : Char) (cs : List Char) : Bool :=
  isSpace c || c == '\n' || (c == '\r' && cs.head? == some '\n')

/-- Takes the end of a line off the front, with blanks and a comment before it. -/
def endLine? (cs : List Char) : Option (List Char) :=
  let cs := match skipSpace cs with
    | '#' :: cs => cs.dropWhile isText
    | cs => cs
  match cs with
  | [] => some []
  | '\n' :: cs => some cs
  | '\r' :: '\n' :: cs => some cs
  | _ => none

/-- Drops spaces, line breaks and comments; `comment` tells whether a comment has begun. -/
def skipGaps (comment : Bool) : List Char → List Char
  | [] => []
  | c :: cs =>
    if comment && isText c then skipGaps true cs
    else if isGap c cs then skipGaps false cs
    else if c == '#' then skipGaps true cs
    else c :: cs

/-! ## Quoted text -/

def escaped? : Char → Option Char
  | '"' => some '"'
  | '\\' => some '\\'
  | 'b' => some '\x08'
  | 'f' => some '\x0c'
  | 'n' => some '\n'
  | 'r' => some '\r'
  | 't' => some '\t'
  | _ => none

def codePoint? (ds : List Char) : Option Char := do
  let n ← Text.hexNumber? ds
  if n.isValidChar then some (.ofNat n) else none

def readLine? (quote : Char) : List Char → Option (List Char × List Char)
  | [] => none
  | c :: cs =>
    if c == quote then some ([], cs)
    else if c == '\\' && quote == '"' then
      match cs with
      | 'u' :: a :: b :: c :: d :: cs => do
        let x ← codePoint? [a, b, c, d]
        let (xs, rest) ← readLine? quote cs
        return (x :: xs, rest)
      | 'U' :: a :: b :: c :: d :: e :: f :: g :: h :: cs => do
        let x ← codePoint? [a, b, c, d, e, f, g, h]
        let (xs, rest) ← readLine? quote cs
        return (x :: xs, rest)
      | e :: cs => do
        let x ← escaped? e
        let (xs, rest) ← readLine? quote cs
        return (x :: xs, rest)
      | [] => none
    else do
      guard (isText c)
      let (xs, rest) ← readLine? quote cs
      return (c :: xs, rest)

/-- The characters after a backslash end the line, but for blanks. -/
def continuesLine (cs : List Char) : Bool :=
  match skipSpace cs with
  | '\n' :: _ => true
  | '\r' :: '\n' :: _ => true
  | _ => false

/-- Reads the rest of a text over several lines, up to and with its three closing quotes, before
which two more may stand. After a backslash at the end of a line `joining` drops the gaps. -/
def readBlock? (quote : Char) (joining : Bool) : List Char → Option (List Char × List Char)
  | [] => none
  | c :: cs =>
    if joining && isGap c cs then readBlock? quote true cs
    else if c == quote then
      match cs with
      | [] => none
      | d :: cs =>
        if d == quote then
          match cs with
          | [] => none
          | e :: cs =>
            if e == quote then
              let more := (cs.takeWhile (· == quote)).take 2
              some (more, cs.drop more.length)
            else (readBlock? quote false (e :: cs)).map fun (xs, rest) => (c :: d :: xs, rest)
        else (readBlock? quote false (d :: cs)).map fun (xs, rest) => (c :: xs, rest)
    else if c == '\\' && quote == '"' then
      match cs with
      | 'u' :: a :: b :: c :: d :: cs => do
        let x ← codePoint? [a, b, c, d]
        let (xs, rest) ← readBlock? quote false cs
        return (x :: xs, rest)
      | 'U' :: a :: b :: c :: d :: e :: f :: g :: h :: cs => do
        let x ← codePoint? [a, b, c, d, e, f, g, h]
        let (xs, rest) ← readBlock? quote false cs
        return (x :: xs, rest)
      | e :: cs =>
        if continuesLine (e :: cs) then readBlock? quote true cs
        else do
          let x ← escaped? e
          let (xs, rest) ← readBlock? quote false cs
          return (x :: xs, rest)
      | [] => none
    else if c == '\r' && cs.head? == some '\n' then readBlock? quote false cs
    else do
      guard (isText c || c == '\n')
      let (xs, rest) ← readBlock? quote false cs
      return (c :: xs, rest)

def dropFirstBreak : List Char → List Char
  | '\n' :: cs => cs
  | '\r' :: '\n' :: cs => cs
  | cs => cs

def readText? : List Char → Option (String × List Char)
  | '"' :: '"' :: '"' :: cs =>
    (readBlock? '"' false (dropFirstBreak cs)).map fun (xs, rest) => (.ofList xs, rest)
  | '\'' :: '\'' :: '\'' :: cs =>
    (readBlock? '\'' false (dropFirstBreak cs)).map fun (xs, rest) => (.ofList xs, rest)
  | '"' :: cs => (readLine? '"' cs).map fun (xs, rest) => (.ofList xs, rest)
  | '\'' :: cs => (readLine? '\'' cs).map fun (xs, rest) => (.ofList xs, rest)
  | _ => none

/-! ## Keys -/

def readKey? : List Char → Option (String × List Char)
  | '"' :: cs => (readLine? '"' cs).map fun (xs, rest) => (.ofList xs, rest)
  | '\'' :: cs => (readLine? '\'' cs).map fun (xs, rest) => (.ofList xs, rest)
  | cs =>
    let key := cs.takeWhile isKeyChar
    if key.isEmpty then none else some (.ofList key, cs.dropWhile isKeyChar)

/-- Takes at most `bound` keys with points between them off the front, with the blanks after them.
-/
def readPath? : (bound : Nat) → List Char → Option (List String × List Char)
  | 0, _ => none
  | bound + 1, cs => do
    let (key, cs) ← readKey? (skipSpace cs)
    match skipSpace cs with
    | '.' :: cs =>
      let (keys, cs) ← readPath? bound cs
      return (key :: keys, cs)
    | cs => return ([key], cs)

/-! ## Values -/

/-- Takes a value without quotes and brackets off the front. A date goes on after one space if a
digit follows. -/
def readBare? (cs : List Char) : Option (Toml × List Char) :=
  let first := cs.takeWhile isBare
  let rest := cs.dropWhile isBare
  let (token, rest) := match rest with
    | ' ' :: d :: cs =>
      if d.isDigit && isDated first then
        (first ++ ' ' :: (d :: cs).takeWhile isBare, (d :: cs).dropWhile isBare)
      else (first, rest)
    | _ => (first, rest)
  (ofBare? token).map (·, rest)

mutual

/-- Takes a value off the front, in which containers lie at most `depth` deep. -/
def readValue? : (fuel depth : Nat) → List Char → Option (Toml × List Char)
  | 0, _, _ => none
  | fuel + 1, depth, cs =>
    match cs with
    | '"' :: _ | '\'' :: _ => (readText? cs).map fun (text, rest) => (.string text, rest)
    | '[' :: cs => do
      guard (0 < depth)
      match skipGaps false cs with
      | ']' :: cs => return (.array [], cs)
      | cs =>
        let (items, cs) ← readItems? fuel (depth - 1) cs
        return (.array items, cs)
    | '\x7b' :: cs => do
      guard (0 < depth)
      match skipSpace cs with
      | '\x7d' :: cs => return (.table .inline [], cs)
      | cs =>
        let (pairs, cs) ← readPairs? fuel (depth - 1) cs
        return (← ofPairs? pairs, cs)
    | cs => readBare? cs

def readItems? : (fuel depth : Nat) → List Char → Option (List Toml × List Char)
  | 0, _, _ => none
  | fuel + 1, depth, cs => do
    let (item, cs) ← readValue? fuel depth cs
    match skipGaps false cs with
    | ']' :: cs => return ([item], cs)
    | ',' :: cs =>
      match skipGaps false cs with
      | ']' :: cs => return ([item], cs)
      | cs =>
        let (items, cs) ← readItems? fuel depth cs
        return (item :: items, cs)
    | _ => none

def readPairs? : (fuel depth : Nat) → List Char → Option (List (List String × Toml) × List Char)
  | 0, _, _ => none
  | fuel + 1, depth, cs => do
    let (path, '=' :: cs) ← readPath? (limit - 1) cs | none
    let (value, cs) ← readValue? fuel depth (skipSpace cs)
    match skipSpace cs with
    | '\x7d' :: cs => return ([(path, value)], cs)
    | ',' :: cs =>
      let (pairs, cs) ← readPairs? fuel depth cs
      return ((path, value) :: pairs, cs)
    | _ => none

end

/-! ## Documents -/

def readLines? : (fuel : Nat) → List Char → Option (List Line)
  | 0, _ => none
  | fuel + 1, cs =>
    match skipSpace cs with
    | [] => some []
    | '[' :: '[' :: cs => do
      let (path, ']' :: ']' :: cs) ← readPath? (limit - 1) cs | none
      let lines ← readLines? fuel (← endLine? cs)
      return .arrayHeader path :: lines
    | '[' :: cs => do
      let (path, ']' :: cs) ← readPath? (limit - 1) cs | none
      let lines ← readLines? fuel (← endLine? cs)
      return .header path :: lines
    | c :: cs =>
      if c == '#' || isGap c cs then do readLines? fuel (← endLine? (c :: cs))
      else do
        let (path, '=' :: cs) ← readPath? (limit - 1) (c :: cs) | none
        let (value, cs) ← readValue? cs.length (limit - 1) (skipSpace cs)
        let lines ← readLines? fuel (← endLine? cs)
        return .entry path value :: lines

def read? (text : String) : Option (List (String × Toml)) :=
  let cs := match text.toList with
    | '\ufeff' :: cs => cs
    | cs => cs
  (readLines? (cs.length + 1) cs).bind ofLines?

end RecordQuery.Toml
