/-
Unsigned decimal numerals: one or more ASCII digits, leading zeros allowed, and
nothing else: no sign, no separator, no digit outside ASCII.
-/

namespace Parley.Text

/-- An ASCII decimal digit. -/
def isDigit (c : Char) : Bool :=
  '0' ≤ c && c ≤ '9'

/-- The number that a list of digits denotes, most significant first. -/
def digitsValue (cs : List Char) : Nat :=
  cs.foldl (fun n c => 10 * n + (c.toNat - '0'.toNat)) 0

/-- The number a numeral denotes, or nothing if the text is no numeral. -/
def decimal? (cs : List Char) : Option Nat :=
  if cs.isEmpty || !cs.all isDigit then none else some (digitsValue cs)

end Parley.Text
