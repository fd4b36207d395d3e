/-
JSON values as they are read: numbers keep their written form, and objects keep every field in
order, repeated names included. A string whose escapes leave half of a surrogate pair alone is
well-formed JSON that denotes no text; it is kept as a string without text.
-/
import Parley.Text.Decimal

namespace Parley.Json

/-- The text of a JSON string, or `none` if an escape leaves half of a surrogate pair alone. -/
abbrev Text := Option String

/-- A JSON value. -/
inductive Value where
  | null
  | bool (b : Bool)
  | number (written : String)
  | string (text : Text)
  | array (items : List Value)
  | object (fields : List (Text × Value))
  deriving Inhabited

namespace Value

/-- The value of a text. -/
def ofString (s : String) : Value :=
  .string (some s)

/-- The value of a natural number. -/
def ofNat (n : Nat) : Value :=
  .number (toString n)

/-- The object with the given fields. -/
def record (fields : List (String × Value)) : Value :=
  .object (fields.map fun f => (some f.1, f.2))

/-- The value of an optional part, where absence is null. -/
def ofOption {α : Type} (f : α → Value) : Option α → Value
  | none => .null
  | some a => f a

/-- The array of a list of texts. -/
def ofStrings (ss : List String) : Value :=
  .array (ss.map ofString)

/-! ## Reading a value as plain data -/

/-- A Boolean value. -/
def bool? : Value → Option Bool
  | .bool b => some b
  | _ => none

/-- A string that denotes a text. -/
def text? : Value → Option String
  | .string t => t
  | _ => none

/-- A number written as digits only: no sign, fraction or exponent. -/
def nat? : Value → Option Nat
  | .number w => Text.decimal? w.toList
  | _ => none

/-- A number written as digits only and below a bound. -/
def natBelow? (bound : Nat) (v : Value) : Option Nat :=
  match v.nat? with
  | some n => if n < bound then some n else none
  | none => none

/-- An array, each of whose items can be read. -/
def list? {α : Type} (read : Value → Option α) : Value → Option (List α)
  | .array vs => vs.mapM read
  | _ => none

/-- The name of a constant: a string, or an object whose only field has that name and is null. -/
def constant? : Value → Option String
  | .string t => t
  | .object [(some name, .null)] => some name
  | _ => none

end Value

end Parley.Json
