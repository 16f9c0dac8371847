import RecordQuery.Text.Hex

/-!
# Universally unique identifiers

* `Uuid`: 32 hexadecimal digits;
* `Uuid.chars`: the hyphenated form 8-4-4-4-12 in lower case;
* `Uuid.read`: the 32 digits, the hyphenated form, and that form in braces or after `urn:uuid:`;
* `Uuid.diagnose`: the cause for which a text is refused.

Lengths and positions are counted in the bytes of UTF-8.
-/

namespace RecordQuery

structure Uuid where
  digits : List (Fin 16)
  length_eq : digits.length = 32
  deriving DecidableEq

namespace Uuid

def compare (a b : Uuid) : Ordering := List.compareLex Ord.compare a.digits b.digits

/-! ## Writing -/

def hexChar (d : Fin 16) : Char := Nat.digitChar d

def chars (u : Uuid) : List Char :=
  let cs := u.digits.map hexChar
  cs.take 8 ++ '-' :: (cs.drop 8).take 4 ++ '-' :: (cs.drop 12).take 4 ++ '-' ::
    (cs.drop 16).take 4 ++ '-' :: cs.drop 20

/-! ## Causes of refusal -/

inductive Fault
  | length (found : Nat)
  | character (found : Char) (position : Nat)
  | groupCount (found : Nat)
  | groupLength (group expected found : Nat)
  deriving DecidableEq, Repr

def Fault.message : Fault → String
  | .length found => s!"invalid length: found {found}"
  | .character found position =>
    "invalid character: found \x60" ++ found.toString ++ s!"\x60 at {position}"
  | .groupCount found => s!"invalid group count: expected 5, found {found}"
  | .groupLength group expected found =>
    s!"invalid group length in group {group}: expected {expected}, found {found}"

def byteLength (cs : List Char) : Nat := cs.foldr (fun c n => c.utf8Size + n) 0

/-- The positions of the hyphens, or the first character that is neither hyphen nor digit. -/
def hyphens (position : Nat) : List Char → Except (Char × Nat) (List Nat)
  | [] => .ok []
  | c :: cs =>
    if c = '-' then (hyphens (position + 1) cs).map (position :: ·)
    else if (Text.hexDigit? c).isSome then hyphens (position + 1) cs
    else .error (c, position)

/-- The text is `urn:uuid:`, in any case, and the returned rest. -/
def afterUrn? (cs : List Char) : Option (List Char) :=
  if (cs.take 9).map Char.toLower = "urn:uuid:".toList then some (cs.drop 9) else none

def insideBraces? : List Char → Option (List Char)
  | '\x7b' :: cs => if cs.getLast? = some '\x7d' then some cs.dropLast else none
  | _ => none

/-- The cause for the first hyphen that is out of place, else for the last group. -/
def groupFault (total : Nat) (positions : List Nat) : Fault :=
  let places := [(8, 0, 8), (13, 9, 4), (18, 14, 4), (23, 19, 4)]
  match (places.zip positions).zipIdx.find? fun (((place, _), found), _) => place ≠ found with
  | some (((_, start, expected), found), group) => .groupLength group expected (found - start)
  | none => .groupLength 4 12 (total - 24)

/-- The cause for which `cs` is refused; `hyphenated` if it had to have the hyphenated form. -/
def diagnose (hyphenated : Bool) (cs : List Char) : Fault :=
  let total := byteLength cs
  if total = 0 ∨ 45 < total then .length total
  else
    let (wrapped, start, inner) :=
      if hyphenated then (true, 0, cs)
      else match insideBraces? cs with
        | some inner => (true, 1, inner)
        | none => match afterUrn? cs with
          | some inner => (true, 9, inner)
          | none => (false, 0, cs)
    match hyphens start inner with
    | .error (c, position) => .character c position
    | .ok positions =>
      if positions.isEmpty && !wrapped then .length total
      else if positions.length ≠ 4 then .groupCount (positions.length + 1)
      else groupFault total (positions.map (· - start))

/-! ## Reading -/

def ofHex? (cs : List Char) : Option Uuid :=
  (cs.mapM Text.hexDigit?).bind fun ds => if h : ds.length = 32 then some ⟨ds, h⟩ else none

def ofHyphenated? (cs : List Char) : Option Uuid :=
  if [8, 13, 18, 23].all fun i => cs[i]? == some '-' then
    ofHex? (cs.take 8 ++ (cs.drop 9).take 4 ++ (cs.drop 14).take 4 ++ (cs.drop 19).take 4 ++
      cs.drop 24)
  else none

/-- The part of a text that its length requires to have the hyphenated form. -/
def hyphenatedPart? (cs : List Char) : Option (List Char) :=
  match byteLength cs with
  | 36 => some cs
  | 38 => insideBraces? cs
  | 45 => afterUrn? cs
  | _ => none

def read (cs : List Char) : Except Fault Uuid :=
  match hyphenatedPart? cs with
  | some part => (ofHyphenated? part).elim (.error (diagnose true part)) .ok
  | none => (ofHex? cs).elim (.error (diagnose false cs)) .ok

end Uuid

end RecordQuery
