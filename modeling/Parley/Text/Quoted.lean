/-
Quoted text, as error messages show a text that came from outside: between double quotes, with the
quote, the backslash and the common controls escaped by a letter, and every other unprintable
character escaped by its code point in braces. A printable character other than the quote and the
backslash stands for itself.
-/
import Parley.Text.Hex
import Parley.Text.Unprintable

namespace Parley.Text.Quoted

/-- The written form of one character inside quotes. -/
def escape (c : Char) : List Char :=
  if c = '"' then ['\\', '"']
  else if c = '\\' then ['\\', '\\']
  else if c = '\n' then ['\\', 'n']
  else if c = '\r' then ['\\', 'r']
  else if c = '\t' then ['\\', 't']
  else if c.toNat = 0 then ['\\', '0']
  else if unprintable c then '\\' :: 'u' :: '\x7b' :: (hexOfNat c.toNat ++ ['\x7d'])
  else [c]

/-- The text between double quotes, escaped. -/
def quote (s : String) : String :=
  String.ofList ('"' :: (s.toList.flatMap escape ++ ['"']))

end Parley.Text.Quoted
