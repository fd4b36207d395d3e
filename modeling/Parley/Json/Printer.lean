/-
Writing JSON, in one line or laid out with two spaces per level. Characters outside ASCII are
written as they are; the quote, the backslash and the control characters are escaped.
-/
import Parley.Json.Value
import Parley.Text.Hex

namespace Parley.Json

/-- The written form of one character inside a string. -/
def escapeChar (c : Char) : List Char :=
  if c = '"' then ['\\', '"']
  else if c = '\\' then ['\\', '\\']
  else if c = '\x08' then ['\\', 'b']
  else if c = '\x0c' then ['\\', 'f']
  else if c = '\n' then ['\\', 'n']
  else if c = '\r' then ['\\', 'r']
  else if c = '\t' then ['\\', 't']
  else if c.toNat < 0x20 then '\\' :: 'u' :: Text.paddedHex 4 c.toNat
  else [c]

/-- A string between quotes; one without text is written as a lone half of a surrogate pair. -/
def quoteText : Text → String
  | some s => String.ofList ('"' :: (s.toList.flatMap escapeChar ++ ['"']))
  | none => "\"\\ud800\""

namespace Value

/-! ## One line -/

mutual

/-- The value in one line without spaces. -/
def compact : Value → String
  | .null => "null"
  | .bool true => "true"
  | .bool false => "false"
  | .number w => w
  | .string t => quoteText t
  | .array vs => "[" ++ compactItems vs ++ "]"
  | .object fs => "\x7b" ++ compactFields fs ++ "\x7d"

/-- The items of an array, separated by commas. -/
def compactItems : List Value → String
  | [] => ""
  | [v] => v.compact
  | v :: vs => v.compact ++ "," ++ compactItems vs

/-- The fields of an object, separated by commas. -/
def compactFields : List (Text × Value) → String
  | [] => ""
  | [(k, v)] => quoteText k ++ ":" ++ v.compact
  | (k, v) :: fs => quoteText k ++ ":" ++ v.compact ++ "," ++ compactFields fs

end

/-! ## Laid out -/

/-- The start of a line at a level of nesting: two spaces per level. -/
def newLine (level : Nat) : String :=
  String.ofList ('\n' :: List.replicate (2 * level) ' ')

mutual

/-- The value laid out at a level of nesting: every item and field on a line of its own, one level
deeper, and an empty container in place. -/
def pretty (level : Nat) : Value → String
  | .null => "null"
  | .bool true => "true"
  | .bool false => "false"
  | .number w => w
  | .string t => quoteText t
  | .array [] => "[]"
  | .array vs => "[" ++ prettyItems (level + 1) vs ++ newLine level ++ "]"
  | .object [] => "\x7b\x7d"
  | .object fs => "\x7b" ++ prettyFields (level + 1) fs ++ newLine level ++ "\x7d"

/-- The items of an array, each on a line of its own. -/
def prettyItems (level : Nat) : List Value → String
  | [] => ""
  | [v] => newLine level ++ v.pretty level
  | v :: vs => newLine level ++ v.pretty level ++ "," ++ prettyItems level vs

/-- The fields of an object, each on a line of its own. -/
def prettyFields (level : Nat) : List (Text × Value) → String
  | [] => ""
  | [(k, v)] => newLine level ++ quoteText k ++ ": " ++ v.pretty level
  | (k, v) :: fs =>
    newLine level ++ quoteText k ++ ": " ++ v.pretty level ++ "," ++ prettyFields level fs

end

end Value

end Parley.Json
