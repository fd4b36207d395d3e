/-
What the local user wants to send, and the outgoing message made of it. A negotiation action becomes
a chat message with one reference, which counts as its content.
-/
import Parley.Action.Basic
import Parley.Message.Basic

namespace Parley

/-- Something the local user wants to send. -/
inductive Intent where
  | connect (text : Option String)
  | opening (text : Option String)
  | close (text : Option String)
  | chat (text : String)
  | negotiate (action : Action) (referenced : Uri)
  deriving DecidableEq

namespace Intent

/-- The negotiation action, if it is one. -/
def action? : Intent → Option (Action × Uri)
  | .negotiate action referenced => some (action, referenced)
  | _ => none

/-- The text that is sent along. -/
def text? : Intent → Option String
  | .connect text => text
  | .opening text => text
  | .close text => text
  | .chat text => some text
  | .negotiate _ _ => none

/-- The kind of the message that is sent. -/
def kind : Intent → MessageKind
  | .connect _ => .connect
  | .opening _ => .opening
  | .close _ => .close
  | .chat _ => .chat .none
  | .negotiate action referenced => .chat (References.none.insert action.reference referenced)

end Intent

/-- A message ready to be handed to the node. -/
structure Dispatch where
  /-- The own side's copy. -/
  message : Message
  text : Option String
  deriving DecidableEq

/-- What makes an event unique: the end of its identifier, and the time it is made. -/
structure Stamp where
  id : String
  date : Nat

/-- The sockets a message goes between, and the base of the identifiers of new events. -/
structure Envelope where
  nodeUri : String
  senderSocket : Uri
  targetSocket : Uri

namespace Envelope

/-- The base of the identifiers without the slashes at its end. -/
def base (e : Envelope) : String :=
  String.ofList (e.nodeUri.toList.reverse.dropWhile (· == '/')).reverse

/-- The identifier of a new event. -/
def eventUri (e : Envelope) (id : String) : Uri :=
  ⟨e.base ++ "/event/" ++ id⟩

/-- The outgoing message of an intent. -/
def compose (e : Envelope) (intent : Intent) (stamp : Stamp) : Dispatch where
  message :=
    { Message.bare (e.eventUri stamp.id) intent.kind .outgoing with
      hasContent := intent.text?.isSome || intent.action?.isSome
      senderSocket := some e.senderSocket
      targetSocket := some e.targetSocket
      date := stamp.date }
  text := intent.text?

end Envelope

end Parley
