/-
Everything the client knows, and the events that change it. The state only changes by folding in one
event at a time. A message pushed, paged or echoed takes effect once, when it is first admitted to
its connection's store; the own message takes effect when the node acknowledges it.
-/
import Parley.Agreement.View
import Parley.Lifecycle.Machine
import Parley.Loading.Tracker
import Parley.Session.Data
import Parley.Store.Basic

namespace Parley

open Loading

/-- An atom the client knows. -/
structure Atom where
  state : AtomState
  sockets : UriSet
  /-- Whether the atom belongs to the account. -/
  owned : Bool
  deriving DecidableEq

/-- A connection between an own socket and a target socket. -/
structure Connection where
  /-- The own atom. -/
  atom : Uri
  socket : Uri
  targetSocket : Uri
  lifecycle : Lifecycle
  store : Store
  /-- The view last reconciled. -/
  agreement : Option AgreementView
  /-- A message arrived that may change agreement data. -/
  agreementStale : Bool
  deriving DecidableEq

namespace Connection

/-- A connection of which nothing but its ends and its state is known. -/
def fresh (atom socket targetSocket : Uri) (lifecycle : Lifecycle) : Connection :=
  ⟨atom, socket, targetSocket, lifecycle, .empty, none, false⟩

/-- The counterpart's atom. -/
def counterpart? (c : Connection) : Option Uri :=
  c.targetSocket.atom?

end Connection

/-- Something that happened. -/
inductive Event where
  | atomLoaded (data : AtomDocument)
  | atomLoadFailed (uri : Uri) (error : NodeFailure)
  | atomDeactivated (uri : Uri)
  | atomActivated (uri : Uri)
  | atomDeleted (uri : Uri)
  | containerLoaded (atom : Uri) (connections : List ConnectionDocument)
  | containerLoadFailed (atom : Uri) (error : NodeFailure)
  | connectionLoaded (data : ConnectionDocument)
  | connectionLoadFailed (uri : Uri) (error : NodeFailure)
  | messagesLoaded (connection : Uri) (page : Page)
  | messagesLoadFailed (connection : Uri) (messages : List Uri) (nextPage : Option String)
      (error : NodeFailure)
  /-- A message was pushed by the node. -/
  | messageReceived (connection : Uri) (message : Message)
  /-- A message is handed to the node; this is the own copy. -/
  | messageSent (connection : Uri) (message : Message)
  | sendSucceeded (connection uri : Uri) (remoteUri : Option Uri)
  | sendFailed (connection uri : Uri)
  | agreementReconciled (connection : Uri) (view : AgreementView) (fetched : List Message)
  | agreementFailed (connection : Uri)
  | loggedOut

/-- Everything the client knows. -/
structure Session where
  atoms : UriMap Atom
  connections : UriMap Connection
  tracker : Tracker
  /-- The number of events so far. -/
  version : Nat
  deriving DecidableEq

namespace Session

/-- The state of a client that knows nothing. -/
def start (maxFailures : Nat) : Session :=
  ⟨∅, ∅, .empty maxFailures, 0⟩

/-- The connections of an atom, by identifier. -/
def connectionsOwnedBy (s : Session) (atom : Uri) : List Uri :=
  (s.connections.filter fun _ c => c.atom = atom).keys

/-! ## Parts of events -/

/-- The state with a connection changed, if it is known. -/
def updateConnection (s : Session) (u : Uri) (f : Connection → Connection) : Session :=
  { s with connections := s.connections.modify u f }

/-- The state without an atom and without its connections. -/
def forgetAtom (s : Session) (atom : Uri) : Session :=
  { s with
    atoms := s.atoms.erase atom
    connections := s.connections.filter fun _ c => c.atom ≠ atom }

/-- The state without the data of a resource. -/
def forget (s : Session) (kind : ResourceKind) (u : Uri) : Session :=
  match kind with
  | .atom | .container => s.forgetAtom u
  | .connection => { s with connections := s.connections.erase u }
  | .external => s

/-- Takes in a failed fetch. Of a deleted resource, the data goes with the records: its own, which
the tracker may not have known, and that of every record removed with it. -/
def takeFailure (s : Session) (kind : ResourceKind) (u : Uri) (e : NodeFailure) : Session :=
  match s.tracker.fail kind u e.toStatus with
  | (.gone removed, t) =>
    removed.foldl (fun s r => s.forget r.1 r.2)
      (({ s with tracker := t } : Session).forget kind u)
  | (_, t) => { s with tracker := t }

/-- The atom after the node delivered it: owned stays owned, and sockets add up. -/
def mergeAtom (data : AtomDocument) : Option Atom → Atom
  | none => ⟨data.state, UriSet.ofList data.sockets, data.owned⟩
  | some a => ⟨data.state, a.sockets.insertAll data.sockets, a.owned || data.owned⟩

/-- Takes in an atom whose fetch is in flight; a deleted atom is removed. -/
def takeAtom (s : Session) (data : AtomDocument) : Session :=
  match s.tracker.complete .atom data.uri none with
  | (false, _) => s
  | (true, t) =>
    if data.state = .deleted then
      ({ s with tracker := (t.forgetAtom data.uri).2 } : Session).forgetAtom data.uri
    else
      { s with
        tracker := t
        atoms := s.atoms.insert data.uri (mergeAtom data (s.atoms.get? data.uri)) }

/-- Sets the activation state of a known atom. -/
def setActivation (s : Session) (u : Uri) (state : AtomState) : Session :=
  { s with atoms := s.atoms.modify u fun a => { a with state := state } }

/-- Takes in a connection as the node delivers it. A new one starts in the node's state; a known one
is moved there if it is elsewhere. A connection whose socket names no atom is not taken in. -/
def mergeConnection (s : Session) (data : ConnectionDocument) : Session :=
  match data.owner? with
  | none => s
  | some atom =>
    match s.connections.get? data.uri with
    | some c =>
      if c.lifecycle.state = data.state then s
      else
        { s with
          connections := s.connections.insert data.uri
            { c with lifecycle := .resume data.state } }
    | none =>
      { s with
        connections := s.connections.insert data.uri
          (.fresh atom data.socket data.targetSocket (.resume data.state)) }

/-- Takes in one connection of a loaded container. -/
def addListed (atom : Uri) (s : Session) (data : ConnectionDocument) : Session :=
  let s := s.mergeConnection data
  { s with tracker := s.tracker.assignOwner data.uri atom }

/-- Takes in the container of an atom, if its fetch is in flight. -/
def takeContainer (s : Session) (atom : Uri) (data : List ConnectionDocument) : Session :=
  match s.tracker.completeContainer atom (data.map fun d => (d.uri, d.counterpart?)) with
  | (false, t) => { s with tracker := t }
  | (true, t) => data.foldl (addListed atom) { s with tracker := t }

/-- Takes in a connection, if its fetch is in flight. -/
def takeConnection (s : Session) (data : ConnectionDocument) : Session :=
  match s.tracker.complete .connection data.uri none with
  | (false, _) => s
  | (true, t) =>
    let t := match data.owner? with
      | some atom => t.assignOwner data.uri atom
      | none => t
    ({ s with tracker := t } : Session).mergeConnection data

/-- Makes a connection of the sockets of its first message, the own one first. -/
def openConnection (s : Session) (u : Uri) (m : Message) : Option Session := do
  let (own, target) := match m.direction with
    | .outgoing => (m.senderSocket, m.targetSocket)
    | .incoming => (m.targetSocket, m.senderSocket)
  let own ← own
  let target ← target
  let atom ← own.atom?
  return { s with
    connections := s.connections.insert u (.fresh atom own target .start)
    tracker := s.tracker.assignOwner u atom }

/-- The state with a connection flagged for reconciliation, because a message that refers to others
took effect. -/
def flagEffects (s : Session) (u : Uri) (m : Message) : Session :=
  if m.hasEffects then
    { s.updateConnection u fun c => { c with agreementStale := true } with
      tracker := s.tracker.invalidatePetriNet u }
  else s

/-- Takes in a message of a known connection: it takes effect if it was not known. -/
def admitMessage (s : Session) (u : Uri) (m : Message) : Session :=
  let s := match m.direction with
    | .incoming => { s with tracker := s.tracker.flagParticipants m }
    | .outgoing => s
  match s.connections.get? u with
  | none => s
  | some c =>
    match c.store.insert m with
    | (.added, store) =>
      let c := { c with store := store, lifecycle := c.lifecycle.absorb m }
      ({ s with connections := s.connections.insert u c } : Session).flagEffects u m
    | (_, store) => { s with connections := s.connections.insert u { c with store := store } }

/-- Takes in a message. An unknown connection is made of the message's sockets if they allow it, and
otherwise the message is dropped. -/
def takeMessage (s : Session) (u : Uri) (m : Message) : Session :=
  if s.connections.contains u then s.admitMessage u m
  else
    match s.openConnection u m with
    | some s => s.admitMessage u m
    | none => s

/-- Takes in the node's acknowledgement of an own message, which now takes effect. -/
def takeAcknowledgement (s : Session) (u event : Uri) (remote : Option Uri) : Session :=
  match s.connections.get? u with
  | none => s
  | some c =>
    match c.store.acknowledge event remote with
    | (false, _) => s
    | (true, store) =>
      match store.get? event with
      | none => { s with connections := s.connections.insert u { c with store := store } }
      | some m =>
        let c := { c with store := store, lifecycle := c.lifecycle.absorb m }
        ({ s with connections := s.connections.insert u c } : Session).flagEffects u m

/-! ## Events -/

/-- The state after what an event does, apart from counting it. -/
def effect (s : Session) : Event → Session
  | .atomLoaded data => s.takeAtom data
  | .atomLoadFailed u e => s.takeFailure .atom u e
  | .atomDeactivated u => s.setActivation u .inactive
  | .atomActivated u => s.setActivation u .active
  | .atomDeleted u => ({ s with tracker := (s.tracker.forgetAtom u).2 } : Session).forgetAtom u
  | .containerLoaded atom data => s.takeContainer atom data
  | .containerLoadFailed atom e => s.takeFailure .container atom e
  | .connectionLoaded data => s.takeConnection data
  | .connectionLoadFailed u e => s.takeFailure .connection u e
  | .messagesLoaded u page =>
    let s := (Message.chronological page.messages).foldl (fun s m => s.takeMessage u m) s
    { s with tracker := (s.tracker.completePage u (page.messages.map (·.uri)) page.nextPage).2 }
  | .messagesLoadFailed u messages nextPage e =>
    { s with tracker := (s.tracker.failPage u messages nextPage e.toStatus).2 }
  | .messageReceived u m => s.takeMessage u m
  | .messageSent u m => s.updateConnection u fun c => { c with store := (c.store.insert m).2 }
  | .sendSucceeded u event remote => s.takeAcknowledgement u event remote
  | .sendFailed u event =>
    s.updateConnection u fun c => { c with store := (c.store.recordFailure event).2 }
  | .agreementReconciled u view fetched =>
    let s := s.updateConnection u fun c =>
      { c with
        store := c.store.insertAll fetched
        agreement := some view
        agreementStale := false }
    { s with tracker := (s.tracker.completeDataSet u .agreementData).2 }
  | .agreementFailed u => { s with tracker := (s.tracker.failDataSet u .agreementData).2 }
  | .loggedOut => { s with atoms := ∅, connections := ∅, tracker := s.tracker.forgetAll }

/-- The state after an event. -/
def apply (s : Session) (e : Event) : Session :=
  ({ s with version := s.version + 1 } : Session).effect e

end Session

end Parley
