/-
Records in JSON. A record has named fields in a fixed order and is written as an object, in any
order and with further fields, or as the array of its fields in order, where trailing fields may be
missing. A record is read into the list of its given fields; a field given twice is refused.
-/
import Parley.Json.Value

namespace Parley.Json

/-- The given fields of a record, each name at most once. -/
abbrev Record := List (String × Value)

namespace Record

/-- Reads the fields of an object: the known ones are kept, each may be given once, and every name
has to denote a text. -/
def ofFields? (names : List String) : List (Text × Value) → Option Record
  | [] => some []
  | (none, _) :: _ => none
  | (some name, v) :: r =>
    match ofFields? names r with
    | none => none
    | some fields =>
      if name ∈ names then
        if (fields.lookup name).isSome then none else some ((name, v) :: fields)
      else some fields

/-- Reads a record with the given field names in order. -/
def read? (names : List String) : Value → Option Record
  | .object fields => ofFields? names fields
  | .array items => if items.length ≤ names.length then some (names.zip items) else none
  | _ => none

/-- A field that has to be given. -/
def required? {α : Type} (r : Record) (name : String) (read : Value → Option α) : Option α :=
  match r.lookup name with
  | some v => read v
  | none => none

/-- A field with a default for when it is not given. -/
def withDefault? {α : Type} (r : Record) (name : String) (read : Value → Option α) (d : α) :
    Option α :=
  match r.lookup name with
  | some v => read v
  | none => some d

/-- A field that may be missing or null. -/
def optional? {α : Type} (r : Record) (name : String) (read : Value → Option α) :
    Option (Option α) :=
  match r.lookup name with
  | some .null => some none
  | some v => (read v).map some
  | none => some none

end Record

end Parley.Json
