/-
Percent encoding: every octet of the UTF-8 form of a text that is not an unreserved character is
written as a percent sign and two upper-case hexadecimal digits.
-/
import Parley.Text.Hex

namespace Parley.Text.Percent

/-- The characters that stand for themselves: ASCII letters and digits, and `-`, `_`, `.`, `~`. -/
def unreserved (b : UInt8) : Bool :=
  (0x30 ≤ b && b ≤ 0x39) || (0x41 ≤ b && b ≤ 0x5A) || (0x61 ≤ b && b ≤ 0x7A) ||
    b == 0x2D || b == 0x5F || b == 0x2E || b == 0x7E

/-- The written form of one octet. -/
def encodeOctet (b : UInt8) : List Char :=
  if unreserved b then [Char.ofNat b.toNat]
  else ['%', upperHexDigit (b.toNat / 16), upperHexDigit (b.toNat % 16)]

/-- The percent-encoded form of a text. -/
def encode (s : String) : String :=
  String.ofList (s.toUTF8.data.toList.flatMap encodeOctet)

end Parley.Text.Percent
