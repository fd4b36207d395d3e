/-
The five states of a connection and the six events that move it between them. A connect seen from
both directions connects; anything but a closed connection can be closed; a closed one can be asked
for again.
-/
import Parley.Message.Basic

namespace Parley

/-- The state of a connection. -/
inductive ConnectionState where
  /-- Proposed by a matcher; nobody has asked yet. -/
  | suggested
  /-- The own side asked and waits. -/
  | requestSent
  /-- The counterpart asked and waits. -/
  | requestReceived
  | connected
  | closed
  deriving DecidableEq, Inhabited

/-- The name of a state. -/
def ConnectionState.name : ConnectionState → String
  | .suggested => "Suggested"
  | .requestSent => "RequestSent"
  | .requestReceived => "RequestReceived"
  | .connected => "Connected"
  | .closed => "Closed"

/-- Every state. -/
def ConnectionState.all : List ConnectionState :=
  [.suggested, .requestSent, .requestReceived, .connected, .closed]

/-- An event in the life of a connection, by the side that produced it. -/
inductive LifecycleEvent where
  | localConnect
  | remoteConnect
  | localOpen
  | remoteOpen
  | localClose
  | remoteClose
  deriving DecidableEq, Inhabited

namespace LifecycleEvent

/-- The name of an event. -/
def name : LifecycleEvent → String
  | .localConnect => "local connect"
  | .remoteConnect => "remote connect"
  | .localOpen => "local open"
  | .remoteOpen => "remote open"
  | .localClose => "local close"
  | .remoteClose => "remote close"

/-- Every event. -/
def all : List LifecycleEvent :=
  [.localConnect, .remoteConnect, .localOpen, .remoteOpen, .localClose, .remoteClose]

/-- The event a message stands for: its kind, from the side of its author. -/
def ofMessage? (m : Message) : Option LifecycleEvent :=
  match m.kind, m.direction with
  | .connect, .outgoing => some .localConnect
  | .connect, .incoming => some .remoteConnect
  | .opening, .outgoing => some .localOpen
  | .opening, .incoming => some .remoteOpen
  | .close, .outgoing => some .localClose
  | .close, .incoming => some .remoteClose
  | _, _ => none

end LifecycleEvent

/-- The state after an event, or nothing where the event is illegal. -/
def ConnectionState.next? : ConnectionState → LifecycleEvent → Option ConnectionState
  | .suggested, .localConnect | .closed, .localConnect => some .requestSent
  | .suggested, .remoteConnect | .closed, .remoteConnect => some .requestReceived
  | .requestSent, .remoteConnect | .requestSent, .remoteOpen => some .connected
  | .requestReceived, .localOpen => some .connected
  | .closed, .localClose | .closed, .remoteClose => none
  | _, .localClose | _, .remoteClose => some .closed
  | _, _ => none

end Parley
