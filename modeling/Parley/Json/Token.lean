/-
The tokens of a JSON text and the scanner that cuts a text into them. Strings are read with their
escapes, numbers are checked against the grammar and kept as written. Main statement: a string's
scanner always leaves a shorter text behind, so scanning ends.
-/
import Parley.Json.Value
import Parley.Text.Hex

namespace Parley.Json

/-- A token of a JSON text. -/
inductive Token where
  | openArray
  | closeArray
  | openObject
  | closeObject
  | comma
  | colon
  | null
  | bool (b : Bool)
  | number (written : String)
  | string (text : Text)

namespace Token

/-! ## Strings -/

/-- One element of a string as written: a character, or half of a surrogate pair as an escape. -/
inductive Piece where
  | char (c : Char)
  | high (n : Nat)
  | low (n : Nat)

/-- The element that a four-digit escape denotes. -/
def Piece.ofCode (n : Nat) : Piece :=
  if 0xD800 ≤ n ∧ n ≤ 0xDBFF then .high (n - 0xD800)
  else if 0xDC00 ≤ n ∧ n ≤ 0xDFFF then .low (n - 0xDC00)
  else .char (Char.ofNat n)

/-- The character of a one-letter escape. -/
def letterEscape? (c : Char) : Option Char :=
  if c = '"' ∨ c = '\\' ∨ c = '/' then some c
  else if c = 'b' then some '\x08'
  else if c = 'f' then some '\x0c'
  else if c = 'n' then some '\n'
  else if c = 'r' then some '\r'
  else if c = 't' then some '\t'
  else none

/-- The number of a four-digit escape. -/
def code? (a b c d : Char) : Option Nat := do
  let a ← Text.hexValue? a
  let b ← Text.hexValue? b
  let c ← Text.hexValue? c
  let d ← Text.hexValue? d
  return ((a * 16 + b) * 16 + c) * 16 + d

/-- The elements of a string up to its closing quote, and what follows the quote. Raw control
characters and unknown escapes are refused. -/
def scanString : List Char → Option (List Piece × List Char)
  | [] => none
  | c :: r =>
    if c = '"' then some ([], r)
    else if c = '\\' then
      match r with
      | 'u' :: h₁ :: h₂ :: h₃ :: h₄ :: r =>
        match code? h₁ h₂ h₃ h₄, scanString r with
        | some n, some (ps, rest) => some (.ofCode n :: ps, rest)
        | _, _ => none
      | e :: r =>
        match letterEscape? e, scanString r with
        | some e, some (ps, rest) => some (.char e :: ps, rest)
        | _, _ => none
      | [] => none
    else if c.toNat < 0x20 then none
    else
      match scanString r with
      | some (ps, rest) => some (.char c :: ps, rest)
      | none => none

/-- What follows a string is shorter than the text it was read from. -/
theorem length_lt_of_scanString {s : List Char} {ps : List Piece} {rest : List Char}
    (h : scanString s = some (ps, rest)) : rest.length < s.length := by
  fun_induction scanString s generalizing ps with
  | case1 => cases h
  | case2 => cases h; simp
  | case3 _ _ _ _ _ _ _ _ _ ih =>
    simp only [Option.some.injEq, Prod.mk.injEq] at h
    obtain ⟨-, rfl⟩ := h
    simp_all
    omega
  | case4 => cases h
  | case5 _ _ _ _ _ _ _ _ ih =>
    simp only [Option.some.injEq, Prod.mk.injEq] at h
    obtain ⟨-, rfl⟩ := h
    simp_all
    omega
  | case6 => cases h
  | case7 => cases h
  | case8 => cases h
  | case9 _ _ _ _ _ _ _ _ ih =>
    simp only [Option.some.injEq, Prod.mk.injEq] at h
    obtain ⟨-, rfl⟩ := h
    simp_all
    omega
  | case10 => cases h

/-- The characters of a string's elements: a high half and the low half right after it make one
character, and any other half denotes nothing. -/
def joinPieces : List Piece → Option (List Char)
  | [] => some []
  | .char c :: r => (joinPieces r).map (c :: ·)
  | .high h :: .low l :: r => (joinPieces r).map (Char.ofNat (0x10000 + h * 0x400 + l) :: ·)
  | .high _ :: _ => none
  | .low _ :: _ => none

/-- The text of a string's elements. -/
def textOf (ps : List Piece) : Text :=
  (joinPieces ps).map String.ofList

/-! ## Numbers and words -/

/-- The end of a number: an exponent or nothing. -/
def isExponent : List Char → Bool
  | [] => true
  | e :: r =>
    (e == 'e' || e == 'E') &&
      match r with
      | [] => false
      | c :: ds =>
        if c = '+' ∨ c = '-' then !ds.isEmpty && ds.all Text.isDigit
        else (c :: ds).all Text.isDigit

/-- What may follow the whole part of a number: a fraction, an exponent, both or neither. -/
def isNumeralTail : List Char → Bool
  | '.' :: r => (r.head?.any Text.isDigit) && isExponent (r.dropWhile Text.isDigit)
  | r => isExponent r

/-- An unsigned number: no leading zero stands before another digit. -/
def isUnsignedNumeral : List Char → Bool
  | [] => false
  | '0' :: r => isNumeralTail r
  | c :: r => Text.isDigit c && isNumeralTail (r.dropWhile Text.isDigit)

/-- A number of the JSON grammar. -/
def isNumeral : List Char → Bool
  | '-' :: r => isUnsignedNumeral r
  | r => isUnsignedNumeral r

/-- The characters that numbers and the three names are made of. -/
def isWordChar (c : Char) : Bool :=
  Text.isDigit c || ('a' ≤ c && c ≤ 'z') || c == 'E' || c == '+' || c == '-' || c == '.'

/-- The token of a maximal run of word characters. -/
def ofWord? (w : List Char) : Option Token :=
  if w = ['n', 'u', 'l', 'l'] then some .null
  else if w = ['t', 'r', 'u', 'e'] then some (.bool true)
  else if w = ['f', 'a', 'l', 's', 'e'] then some (.bool false)
  else if isNumeral w then some (.number (String.ofList w))
  else none

/-! ## Scanning -/

/-- The token of a punctuation mark. -/
def ofMark? (c : Char) : Option Token :=
  if c = '[' then some .openArray
  else if c = ']' then some .closeArray
  else if c = '\x7b' then some .openObject
  else if c = '\x7d' then some .closeObject
  else if c = ',' then some .comma
  else if c = ':' then some .colon
  else none

/-- The four characters that may stand between tokens. -/
def isSpace (c : Char) : Bool :=
  c == ' ' || c == '\t' || c == '\n' || c == '\r'

/-- The tokens of a text. -/
def scan : List Char → Option (List Token)
  | [] => some []
  | c :: r =>
    if isSpace c then scan r
    else if c = '"' then
      match h : scanString r with
      | some (ps, rest) =>
        have := length_lt_of_scanString h
        (scan rest).map (.string (textOf ps) :: ·)
      | none => none
    else
      match ofMark? c with
      | some t => (scan r).map (t :: ·)
      | none =>
        if isWordChar c then
          match ofWord? (c :: r.takeWhile isWordChar) with
          | some t =>
            have := (List.dropWhile_sublist isWordChar (l := r)).length_le
            (scan (r.dropWhile isWordChar)).map (t :: ·)
          | none => none
        else none
termination_by s => s.length
decreasing_by all_goals simp_all; try omega

end Token

end Parley.Json
