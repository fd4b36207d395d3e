/-
Messages exchanged over a connection. The kind of a message is one of a closed set, and only a chat
message carries references. Each side of a connection mints its own identifier for a shared event,
so a message may be known under two names.
-/
import Parley.Message.References

namespace Parley

/-- Which side of the connection authored a message. -/
inductive Direction where
  | outgoing
  | incoming
  deriving DecidableEq, Inhabited

namespace Direction

/-- The direction of a message that the own side did or did not send. -/
def ofOutgoing (outgoing : Bool) : Direction :=
  if outgoing then .outgoing else .incoming

/-- The other direction. -/
def flip : Direction → Direction
  | .outgoing => .incoming
  | .incoming => .outgoing

/-- The name of a direction. -/
def name : Direction → String
  | .outgoing => "outgoing"
  | .incoming => "incoming"

end Direction

/-- What a message is for. -/
inductive MessageKind where
  /-- A connection request, also to reopen a closed connection. -/
  | connect
  /-- The acceptance of a connection request. -/
  | opening
  /-- A chat message, the only kind that refers to other messages. -/
  | chat (references : References)
  | close
  | feedback
  | atomHint
  | socketHint
  | changeNotification
  /-- The node's answer to a message sent before. -/
  | response (success : Bool)
  deriving DecidableEq

namespace MessageKind

/-- The short name of a kind. -/
def name : MessageKind → String
  | .connect => "connect"
  | .opening => "open"
  | .chat _ => "chat"
  | .close => "close"
  | .feedback => "feedback"
  | .atomHint => "atomHint"
  | .socketHint => "socketHint"
  | .changeNotification => "changeNotification"
  | .response _ => "response"

/-- The references a kind carries: none but for chat. -/
def references : MessageKind → References
  | .chat references => references
  | _ => .none

end MessageKind

/-- What is known about the delivery of a message. -/
structure Delivery where
  receivedByOwn : Bool
  receivedByRemote : Bool
  failedToSend : Bool
  deriving DecidableEq

namespace Delivery

/-- Nothing known yet. -/
def unknown : Delivery := ⟨false, false, false⟩

/-- Whether either node acknowledged the message. -/
def acknowledged (d : Delivery) : Bool :=
  d.receivedByOwn || d.receivedByRemote

end Delivery

/-- An event exchanged over a connection. -/
structure Message where
  /-- The own side's name of the event. -/
  uri : Uri
  /-- The counterpart's name of the event. -/
  remoteUri : Option Uri
  kind : MessageKind
  direction : Direction
  hasContent : Bool
  systemMessage : Bool
  senderSocket : Option Uri
  targetSocket : Option Uri
  /-- Milliseconds since the epoch. -/
  date : Nat
  unread : Bool
  delivery : Delivery
  deriving DecidableEq

namespace Message

/-- A message with nothing known but its name, kind and direction. -/
def bare (uri : Uri) (kind : MessageKind) (direction : Direction) : Message where
  uri := uri
  remoteUri := none
  kind := kind
  direction := direction
  hasContent := false
  systemMessage := false
  senderSocket := none
  targetSocket := none
  date := 0
  unread := false
  delivery := .unknown

/-- A chat message, which has content. -/
def chat (uri : Uri) (direction : Direction) (references : References) : Message :=
  { bare uri (.chat references) direction with hasContent := true }

/-- The references of a message. -/
def references (m : Message) : References :=
  m.kind.references

/-- Whether the own side authored the message. -/
def isOwn (m : Message) : Bool :=
  m.direction = .outgoing

/-- Whether the identifier names the message from either side. -/
def hasName (m : Message) (u : Uri) : Bool :=
  m.uri = u || m.remoteUri = some u

/-- Whether the message can change the status of others, so that agreement data may be outdated. -/
def hasEffects (m : Message) : Bool :=
  !m.references.isEmpty

/-- The atom of the sending socket. -/
def sender? (m : Message) : Option Uri :=
  m.senderSocket.bind Uri.atom?

/-- The atom of the target socket. -/
def recipient? (m : Message) : Option Uri :=
  m.targetSocket.bind Uri.atom?

/-- The order messages are shown in: by date, and by name within a date. -/
def before (a b : Message) : Bool :=
  a.date < b.date || (a.date = b.date && !(b.uri < a.uri))

/-- The messages by date, and by name within a date. -/
def chronological (ms : List Message) : List Message :=
  ms.mergeSort before

theorem hasName_iff {m : Message} {u : Uri} :
    m.hasName u = true ↔ m.uri = u ∨ m.remoteUri = some u := by
  simp [hasName]

end Message

end Parley
