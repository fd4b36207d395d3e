/-
Identifiers, sets of them and maps from them in JSON: a string, an ascending array and an object.
-/
import Parley.Json.Value
import Parley.UriMap
import Parley.UriSet

namespace Parley

open Json

/-- Reads an identifier. -/
def Uri.ofJson? (v : Value) : Option Uri :=
  v.text?.map Uri.mk

/-- An identifier as JSON. -/
def Uri.toJson (u : Uri) : Value :=
  .ofString u.text

/-- Reads a set of identifiers, in any order and with repetitions. -/
def UriSet.ofJson? (v : Value) : Option UriSet :=
  (v.list? Uri.ofJson?).map UriSet.ofList

/-- A set of identifiers as JSON. -/
def UriSet.toJson (s : UriSet) : Value :=
  .array (s.toList.map Uri.toJson)

/-- A map from identifiers as JSON. -/
def UriMap.toJson {α : Type} (f : α → Value) (m : UriMap α) : Value :=
  .record (m.entries.map fun e => (e.1.text, f e.2))

end Parley
