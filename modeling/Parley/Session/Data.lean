/-
What the node delivers: atoms, connections, pages of messages, acknowledgements, and failures. Atoms
and connections are read from JSON records.
-/
import Parley.Json.Identifier
import Parley.Json.Record
import Parley.Lifecycle.State
import Parley.Loading.Record

namespace Parley

/-- The activation state of an atom. -/
inductive AtomState where
  | active
  | inactive
  | deleted
  deriving DecidableEq, Inhabited

/-- The name of an activation state. -/
def AtomState.name : AtomState → String
  | .active => "Active"
  | .inactive => "Inactive"
  | .deleted => "Deleted"

/-- A fetch or a send that failed. -/
structure NodeFailure where
  /-- The code the node answered with, if it answered at all. -/
  status : Option Nat
  text : String
  deriving DecidableEq

namespace NodeFailure

/-- The failure of a resource that was deleted on the node. -/
def gone : NodeFailure := ⟨some Loading.goneCode, "Gone"⟩

/-- Whether the resource was deleted on the node. -/
def saysGone (e : NodeFailure) : Bool :=
  e.status = some Loading.goneCode

/-- The failure as a load record keeps it. -/
def toStatus (e : NodeFailure) : Loading.FetchAnswer :=
  ⟨e.status, e.text⟩

/-- The text a failure is reported with. -/
def message (e : NodeFailure) : String :=
  let status := match e.status with
    | none => "None"
    | some code => "Some(" ++ toString code ++ ")"
  e.text ++ " (status " ++ status ++ ")"

end NodeFailure

/-- The node's acknowledgement of a sent message. -/
structure Acknowledgement where
  /-- The counterpart's name of the event. -/
  remoteUri : Option Uri
  deriving DecidableEq

/-- An atom as the node delivers it. -/
structure AtomDocument where
  uri : Uri
  state : AtomState
  sockets : List Uri
  /-- Whether the atom belongs to the account. -/
  owned : Bool
  deriving DecidableEq

/-- A connection as the node delivers it. -/
structure ConnectionDocument where
  uri : Uri
  state : ConnectionState
  socket : Uri
  targetSocket : Uri
  deriving DecidableEq

namespace ConnectionDocument

/-- The own atom. -/
def owner? (d : ConnectionDocument) : Option Uri :=
  d.socket.atom?

/-- The counterpart's atom. -/
def counterpart? (d : ConnectionDocument) : Option Uri :=
  d.targetSocket.atom?

end ConnectionDocument

/-- One page of the messages of a connection. -/
structure Page where
  messages : List Message
  /-- Where the page of older messages starts, if there is one. -/
  nextPage : Option String
  deriving DecidableEq

/-! ## From JSON -/

open Json

/-- Reads an activation state. -/
def AtomState.ofJson? (v : Value) : Option AtomState :=
  match v.constant? with
  | some "Active" => some .active
  | some "Inactive" => some .inactive
  | some "Deleted" => some .deleted
  | _ => none

/-- Reads a connection state. -/
def ConnectionState.ofJson? (v : Value) : Option ConnectionState :=
  v.constant?.bind fun name => ConnectionState.all.find? fun s => s.name = name

/-- Reads an atom. -/
def AtomDocument.ofJson? (v : Value) : Option AtomDocument := do
  let r ← Record.read? ["uri", "state", "sockets", "owned"] v
  return {
    uri := ← r.required? "uri" Uri.ofJson?
    state := ← r.required? "state" AtomState.ofJson?
    sockets := ← r.withDefault? "sockets" (Value.list? Uri.ofJson?) []
    owned := ← r.withDefault? "owned" Value.bool? false }

/-- Reads a connection. -/
def ConnectionDocument.ofJson? (v : Value) : Option ConnectionDocument := do
  let r ← Record.read? ["uri", "state", "socket", "targetSocket"] v
  return {
    uri := ← r.required? "uri" Uri.ofJson?
    state := ← r.required? "state" ConnectionState.ofJson?
    socket := ← r.required? "socket" Uri.ofJson?
    targetSocket := ← r.required? "targetSocket" Uri.ofJson? }

/-- Reads an acknowledgement; as an array it has to give its only field. -/
def Acknowledgement.ofJson? (v : Value) : Option Acknowledgement :=
  match v with
  | .array [] => none
  | v => do
    let r ← Record.read? ["remoteUri"] v
    return { remoteUri := ← r.optional? "remoteUri" Uri.ofJson? }

end Parley
