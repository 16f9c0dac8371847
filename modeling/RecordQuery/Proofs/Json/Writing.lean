import Mathlib.Data.List.Forall2
import Mathlib.Data.Option.Basic
import RecordQuery.Json.Printer
import RecordQuery.Json.Reader

/-!
# JSON that is written and read

* `Json.Raw.pieceOf`, `Json.Raw.quoted` : the pieces of a text in quotes, of which each is one character;
* `Json.Raw.readPieces?_quoted`, `Json.Raw.string?_quoted` : a text in quotes is read as these, and they are the text;
* `Json.Raw.Reads cs r` : the characters are read as a document, whatever comes after them;
* `Reads.null`, `Reads.quoted`, `Reads.array`, `Reads.object` : the documents made of such parts;
* `Reads.readChars?` : the whole text.
-/

namespace RecordQuery.Json.Raw

/-! ## Texts in quotes -/

/-- The piece that a character in quotes is written as: control characters without a letter of their own are
written by their codes. -/
def pieceOf (c : Char) : Piece :=
  if c.toNat < 0x20 ∧ c ∉ ['\n', '\r', '\t', '\x08', '\x0c'] then .code c.toNat else .char c

def quoted (s : String) : Raw := .string (s.toList.map pieceOf)

theorem hexNumber?_digitChar : ∀ n < 0x20,
    Text.hexNumber? ['0', '0', Nat.digitChar (n / 16), Nat.digitChar (n % 16)] = some n := by
  decide

/-- A character that stands for itself is read as a piece. -/
theorem readPieces?_plain {c : Char} (hlow : 0x20 ≤ c.toNat) (hquote : c ≠ '"') (hslash : c ≠ '\\')
    (cs : List Char) :
    readPieces? (c :: cs) = (readPieces? cs).map fun (ps, cs) => (.char c :: ps, cs) := by
  rw [readPieces?.eq_def]
  split
  · rename_i heq
    cases heq
  · rename_i heq
    cases heq
    exact absurd rfl hquote
  · rename_i heq
    cases heq
    exact absurd rfl hslash
  · rename_i heq
    cases heq
    exact absurd rfl hslash
  · rename_i heq
    cases heq
    have hguard : (guard (0x20 ≤ c.toNat ∧ c ≠ '\\') : Option Unit) = some () := if_pos ⟨hlow, hslash⟩
    rw [hguard]
    cases readPieces? cs <;> rfl

theorem readPieces?_letter {c d : Char} (hd : d ≠ 'u') (hc : escaped? d = some c) (cs : List Char) :
    readPieces? ('\\' :: d :: cs) = (readPieces? cs).map fun (ps, cs) => (.char c :: ps, cs) := by
  rw [readPieces?]
  · rw [hc]
    cases readPieces? cs <;> rfl
  · simp [hd]

theorem readPieces?_code {c : Char} (hlow : c.toNat < 0x20) (cs : List Char) :
    readPieces? ('\\' :: 'u' :: '0' :: '0' :: Nat.digitChar (c.toNat / 16) ::
      Nat.digitChar (c.toNat % 16) :: cs) =
      (readPieces? cs).map fun (ps, cs) => (.code c.toNat :: ps, cs) := by
  rw [readPieces?, hexNumber?_digitChar c.toNat hlow]
  cases readPieces? cs <;> rfl

theorem readPieces?_escape (c : Char) (cs : List Char) :
    readPieces? (escape c ++ cs) = (readPieces? cs).map fun (ps, cs) => (pieceOf c :: ps, cs) := by
  unfold escape
  split
  case h_8 hquote hslash hn hr ht hb hf =>
    split
    · rename_i hlow
      have hpiece : pieceOf c = .code c.toNat := by simp_all [pieceOf]
      rw [hpiece]
      exact readPieces?_code hlow cs
    · rename_i hlow
      have hpiece : pieceOf c = .char c := by simp_all [pieceOf]
      rw [hpiece]
      exact readPieces?_plain (by omega) hquote hslash cs
  all_goals exact readPieces?_letter (by decide) rfl cs

theorem readPieces?_quoted (cs rest : List Char) :
    readPieces? (cs.flatMap escape ++ '"' :: rest) = some (cs.map pieceOf, rest) := by
  induction cs with
  | nil => rfl
  | cons c cs ih =>
    rw [List.flatMap_cons, List.append_assoc, readPieces?_escape, ih]
    rfl

theorem decode?_pieceOf (c : Char) (ps : List Piece) :
    decode? (pieceOf c :: ps) = (decode? ps).map (c :: ·) := by
  unfold pieceOf
  split
  · rename_i hlow
    have hvalid : c.toNat < 0xD800 ∨ 0xDFFF < c.toNat := by omega
    rw [decode?.eq_def]
    simp only [hvalid, if_true, Char.ofNat_toNat]
  · rw [decode?]

theorem decode?_map_pieceOf (cs : List Char) : decode? (cs.map pieceOf) = some cs := by
  induction cs with
  | nil => rfl
  | cons c cs ih => rw [List.map_cons, decode?_pieceOf, ih, Option.map_some]

theorem string?_quoted (s : String) : (quoted s).string? = some s := by
  rw [quoted, string?, decode?_map_pieceOf, Option.map_some, String.ofList_toList]

/-! ## Documents -/

/-- The characters are read as the document, whatever comes after them; one unit of fuel for each of them is
enough. They do not start with a blank or with a closing bracket. -/
structure Reads (cs : List Char) (r : Raw) : Prop where
  starts : ∃ c ds, cs = c :: ds ∧ isSpace c = false ∧ c ≠ ']'
  read (fuel : Nat) (rest : List Char) (h : cs.length ≤ fuel) :
    readValue? fuel (cs ++ rest) = some (r, rest)

theorem skipSpace_cons {c : Char} (h : isSpace c = false) (cs : List Char) :
    skipSpace (c :: cs) = c :: cs :=
  List.dropWhile_cons_of_neg (by simp [h])

theorem commaSeparated_cons_cons (p q : List Char) (ps : List (List Char)) :
    commaSeparated (p :: q :: ps) = p ++ ',' :: commaSeparated (q :: ps) := rfl

theorem readValue?_quote (fuel : Nat) (cs : List Char) :
    readValue? (fuel + 1) ('"' :: cs) = (readPieces? cs).map fun (ps, cs) => (.string ps, cs) := rfl

theorem readValue?_bracket (fuel : Nat) {c : Char} (h : isSpace c = false) (hc : c ≠ ']') (cs : List Char) :
    readValue? (fuel + 1) ('[' :: c :: cs) =
      (readItems? fuel (c :: cs)).map fun (items, cs) => (.array items, cs) := by
  rw [readValue?, skipSpace_cons rfl]
  simp [skipSpace_cons h, hc]

theorem readItems?_last {fuel : Nat} {cs rest : List Char} {r : Raw}
    (h : readValue? fuel cs = some (r, ']' :: rest)) : readItems? (fuel + 1) cs = some ([r], rest) := by
  rw [readItems?, h]
  rfl

theorem readItems?_comma {fuel : Nat} {cs rest : List Char} {r : Raw}
    (h : readValue? fuel cs = some (r, ',' :: rest)) : readItems? (fuel + 1) cs =
      (readItems? fuel rest).map fun (items, cs) => (r :: items, cs) := by
  rw [readItems?, h]
  show (readItems? fuel rest >>= fun (items, cs) => some (r :: items, cs)) = _
  cases readItems? fuel rest <;> rfl

def memberChars (m : String × List Char) : List Char := quotedChars m.1 ++ ':' :: m.2

/-- What comes after a key and its colon. -/
theorem readMembers?_key (fuel : Nat) (key : String) (cs : List Char) :
    readMembers? (fuel + 1) (quotedChars key ++ ':' :: cs) = (do
      let (item, cs) ← readValue? fuel cs
      match skipSpace cs with
      | ',' :: cs =>
        let (members, cs) ← readMembers? fuel cs
        return ((key.toList.map pieceOf, item) :: members, cs)
      | '\x7d' :: cs => return ([(key.toList.map pieceOf, item)], cs)
      | _ => none) := by
  have hchars : quotedChars key ++ ':' :: cs = '"' :: (key.toList.flatMap escape ++ '"' :: ':' :: cs) := by
    simp [quotedChars]
  rw [hchars, readMembers?, skipSpace_cons rfl]
  show (readPieces? (key.toList.flatMap escape ++ '"' :: ':' :: cs) >>= _) = _
  rw [readPieces?_quoted]
  rfl

theorem readMembers?_last {fuel : Nat} (key : String) {cs rest : List Char} {r : Raw}
    (h : readValue? fuel cs = some (r, '\x7d' :: rest)) :
    readMembers? (fuel + 1) (quotedChars key ++ ':' :: cs) = some ([(key.toList.map pieceOf, r)], rest) := by
  rw [readMembers?_key, h]
  rfl

theorem readMembers?_comma {fuel : Nat} (key : String) {cs rest : List Char} {r : Raw}
    (h : readValue? fuel cs = some (r, ',' :: rest)) :
    readMembers? (fuel + 1) (quotedChars key ++ ':' :: cs) =
      (readMembers? fuel rest).map fun (members, cs) => ((key.toList.map pieceOf, r) :: members, cs) := by
  rw [readMembers?_key, h]
  show (readMembers? fuel rest >>= fun (members, cs) => some ((key.toList.map pieceOf, r) :: members, cs)) = _
  cases readMembers? fuel rest <;> rfl

theorem readValue?_brace (fuel : Nat) (key : String) (cs : List Char) :
    readValue? (fuel + 1) ('\x7b' :: (quotedChars key ++ cs)) =
      (readMembers? fuel (quotedChars key ++ cs)).map fun (members, cs) => (.object members, cs) := rfl

namespace Reads
variable {cs : List Char} {r : Raw} {parts : List (List Char)} {rs : List Raw}

theorem length_pos (h : Reads cs r) : 0 < cs.length := by
  obtain ⟨c, ds, rfl, -, -⟩ := h.starts
  simp

theorem null : Reads "null".toList .null := by
  refine ⟨⟨'n', ['u', 'l', 'l'], rfl, rfl, by decide⟩, fun fuel rest h => ?_⟩
  cases fuel with
  | zero => cases h
  | succ fuel => rfl

theorem quoted (s : String) : Reads (quotedChars s) (quoted s) := by
  refine ⟨⟨'"', _, rfl, rfl, by decide⟩, fun fuel rest h => ?_⟩
  cases fuel with
  | zero => cases h
  | succ fuel =>
    have hchars : quotedChars s ++ rest = '"' :: (s.toList.flatMap escape ++ '"' :: rest) := by
      simp [quotedChars]
    rw [hchars, readValue?_quote, readPieces?_quoted]
    rfl

theorem items (h : List.Forall₂ Reads parts rs) (hne : parts ≠ []) (fuel : Nat) (rest : List Char)
    (hfuel : (commaSeparated parts).length < fuel) :
    readItems? fuel (commaSeparated parts ++ ']' :: rest) = some (rs, rest) := by
  induction h generalizing fuel with
  | nil => exact absurd rfl hne
  | @cons part r parts rs hpart hparts ih =>
    have hlen : 0 < part.length := hpart.length_pos
    cases fuel with
    | zero => cases hfuel
    | succ fuel =>
      cases hparts with
      | nil => exact readItems?_last (hpart.read fuel (']' :: rest) (Nat.le_of_lt_succ hfuel))
      | @cons part' r' parts rs hpart' hparts =>
        rw [commaSeparated_cons_cons, List.length_append, List.length_cons] at hfuel
        have hread : readValue? fuel (commaSeparated (part :: part' :: parts) ++ ']' :: rest) =
            some (r, ',' :: (commaSeparated (part' :: parts) ++ ']' :: rest)) := by
          rw [commaSeparated_cons_cons, List.append_assoc]
          exact hpart.read fuel _ (by omega)
        rw [readItems?_comma hread, ih (List.cons_ne_nil _ _) fuel (by omega)]
        rfl

theorem array (h : List.Forall₂ Reads parts rs) :
    Reads ('[' :: (commaSeparated parts ++ [']'])) (.array rs) := by
  refine ⟨⟨'[', _, rfl, rfl, by decide⟩, fun fuel rest hfuel => ?_⟩
  rw [List.length_cons, List.length_append, List.length_singleton] at hfuel
  cases fuel with
  | zero => cases hfuel
  | succ fuel =>
    have hchars : '[' :: (commaSeparated parts ++ [']']) ++ rest =
        '[' :: (commaSeparated parts ++ ']' :: rest) := by
      simp
    rw [hchars]
    cases h with
    | nil => rfl
    | @cons part r parts rs hpart hparts =>
      have hitems := items (.cons hpart hparts) (List.cons_ne_nil _ _) fuel rest (by omega)
      obtain ⟨c, ds, hc, hspace, hne⟩ := hpart.starts
      obtain ⟨es, hes⟩ : ∃ es, commaSeparated (part :: parts) ++ ']' :: rest = c :: es := by
        cases parts <;> simp [commaSeparated, hc]
      rw [hes] at hitems ⊢
      rw [readValue?_bracket fuel hspace hne, hitems]
      rfl

/-- A member as it is written, and as it is read. -/
def Member (m : String × List Char) (e : List Piece × Raw) : Prop :=
  e.1 = m.1.toList.map pieceOf ∧ Reads m.2 e.2

variable {ms : List (String × List Char)} {es : List (List Piece × Raw)}

theorem members (h : List.Forall₂ Member ms es) (hne : ms ≠ []) (fuel : Nat) (rest : List Char)
    (hfuel : (commaSeparated (ms.map memberChars)).length < fuel) :
    readMembers? fuel (commaSeparated (ms.map memberChars) ++ '\x7d' :: rest) = some (es, rest) := by
  induction h generalizing fuel with
  | nil => exact absurd rfl hne
  | @cons m e ms es hm hms ih =>
    obtain ⟨key, cs⟩ := m
    obtain ⟨_, r⟩ := e
    obtain ⟨rfl, hr : Reads cs r⟩ := hm
    have hlen : cs.length < (memberChars (key, cs)).length := by simp [memberChars]; omega
    cases fuel with
    | zero => cases hfuel
    | succ fuel =>
      cases hms with
      | nil =>
        have hshort : (memberChars (key, cs)).length < fuel + 1 := hfuel
        have hread := readMembers?_last key (hr.read fuel ('\x7d' :: rest) (by omega))
        rw [← hread, List.map_singleton, commaSeparated, memberChars, List.append_assoc, List.cons_append]
      | @cons m' e' ms es hm' hms =>
        rw [List.map_cons, List.map_cons, commaSeparated_cons_cons, List.length_append, List.length_cons] at hfuel
        have hread := readMembers?_comma key
          (hr.read fuel (',' :: (commaSeparated ((m' :: ms).map memberChars) ++ '\x7d' :: rest)) (by omega))
        rw [ih (List.cons_ne_nil _ _) fuel (by rw [List.map_cons]; omega)] at hread
        rw [List.map_cons, List.map_cons, commaSeparated_cons_cons, ← List.map_cons]
        simpa [memberChars] using hread

theorem object (h : List.Forall₂ Member ms es) (hne : ms ≠ []) :
    Reads ('\x7b' :: (commaSeparated (ms.map memberChars) ++ ['\x7d'])) (.object es) := by
  refine ⟨⟨'\x7b', _, rfl, rfl, by decide⟩, fun fuel rest hfuel => ?_⟩
  rw [List.length_cons, List.length_append, List.length_singleton] at hfuel
  cases fuel with
  | zero => cases hfuel
  | succ fuel =>
    have hmembers := members h hne fuel rest (by omega)
    cases ms with
    | nil => exact absurd rfl hne
    | cons m ms =>
      obtain ⟨tail, htail⟩ : ∃ tail, commaSeparated ((m :: ms).map memberChars) ++ '\x7d' :: rest =
          quotedChars m.1 ++ tail := by
        cases ms <;> simp [commaSeparated, memberChars]
      have hchars : '\x7b' :: (commaSeparated ((m :: ms).map memberChars) ++ ['\x7d']) ++ rest =
          '\x7b' :: (quotedChars m.1 ++ tail) := by
        rw [← htail]
        simp
      rw [htail] at hmembers
      rw [hchars, readValue?_brace, hmembers]
      rfl

theorem readChars? (h : Reads cs r) : readChars? cs = some r := by
  have hread := h.read (cs.length + 1) [] (Nat.le_succ _)
  rw [List.append_nil] at hread
  rw [Raw.readChars?, hread]
  rfl

end Reads

end RecordQuery.Json.Raw
