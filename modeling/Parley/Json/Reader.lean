/-
Reading a JSON text: its tokens are fed one by one to a machine that keeps the open containers as a
stack of frames. A text is JSON when the machine ends with one complete value. Nesting may have any
depth.
-/
import Parley.Json.Token

namespace Parley.Json

namespace Reader

/-- An open container around the value being read: what it holds so far, the last item first. -/
inductive Frame where
  | array (items : List Value)
  | object (fields : List (Text × Value)) (key : Text)

/-- What may come next, and the containers that are open there. -/
inductive State where
  /-- A value must come. -/
  | value (outer : List Frame)
  /-- An array was opened: its first item or its end must come. -/
  | firstItem (outer : List Frame)
  /-- An object was opened: its first key or its end must come. -/
  | firstKey (outer : List Frame)
  /-- A comma was read in an object: a key must come. -/
  | key (fields : List (Text × Value)) (outer : List Frame)
  /-- A key was read: a colon must come. -/
  | colon (key : Text) (fields : List (Text × Value)) (outer : List Frame)
  /-- An item of an array is complete: a comma or the end of the array must come. -/
  | afterItem (items : List Value) (outer : List Frame)
  /-- A field of an object is complete: a comma or the end of the object must come. -/
  | afterField (fields : List (Text × Value)) (outer : List Frame)
  /-- The whole value is complete: nothing may come. -/
  | finished (v : Value)

/-- The state after a complete value. -/
def State.complete (v : Value) : List Frame → State
  | [] => .finished v
  | .array items :: outer => .afterItem (v :: items) outer
  | .object fields k :: outer => .afterField ((k, v) :: fields) outer

/-- The state after a token where a value may start. -/
def State.startValue (outer : List Frame) : Token → Option State
  | .openArray => some (.firstItem outer)
  | .openObject => some (.firstKey outer)
  | .null => some (.complete .null outer)
  | .bool b => some (.complete (.bool b) outer)
  | .number w => some (.complete (.number w) outer)
  | .string t => some (.complete (.string t) outer)
  | _ => none

/-- The state after one more token. -/
def State.step : State → Token → Option State
  | .value outer, t => startValue outer t
  | .firstItem outer, .closeArray => some (.complete (.array []) outer)
  | .firstItem outer, t => startValue (.array [] :: outer) t
  | .firstKey outer, .closeObject => some (.complete (.object []) outer)
  | .firstKey outer, .string k => some (.colon k [] outer)
  | .key fields outer, .string k => some (.colon k fields outer)
  | .colon k fields outer, .colon => some (.value (.object fields k :: outer))
  | .afterItem items outer, .comma => some (.value (.array items :: outer))
  | .afterItem items outer, .closeArray => some (.complete (.array items.reverse) outer)
  | .afterField fields outer, .comma => some (.key fields outer)
  | .afterField fields outer, .closeObject => some (.complete (.object fields.reverse) outer)
  | _, _ => none

/-- The value that a list of tokens spells. -/
def ofTokens? (ts : List Token) : Option Value :=
  match ts.foldlM State.step (.value []) with
  | some (.finished v) => some v
  | _ => none

end Reader

/-- The value that a JSON text denotes, or nothing if the text is not JSON. -/
def parse? (s : String) : Option Value :=
  match Token.scan s.toList with
  | some ts => Reader.ofTokens? ts
  | none => none

end Parley.Json
