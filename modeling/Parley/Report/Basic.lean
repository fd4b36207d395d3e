/-
The report on a recorded connection: for every message its status, how it is shown and which actions
it qualifies for, and the agreement view, from the messages alone and, if the server's answer was
recorded too, reconciled with it.
-/
import Parley.Agreement.Local
import Parley.Agreement.Reconcile
import Parley.Lifecycle.Machine
import Parley.Message.Wire
import Parley.Session.Error

namespace Parley

/-- What the report says about one message. -/
structure ReportEntry where
  uri : Uri
  kind : MessageKind
  direction : Direction
  status : MessageStatus
  classification : Classification
  permittedActions : List Action

/-- The report on a recorded connection. -/
structure Report where
  connection : Uri
  state : ConnectionState
  messages : List ReportEntry
  /-- The agreement view from the messages alone. -/
  localView : AgreementView
  /-- The view reconciled with the server's answer, if that was recorded. -/
  reconciled : Option AgreementView
  /-- The entries that could not be resolved from the recording. -/
  unresolved : List Uri

namespace Report

/-- Answers from a recording: the server's sets as recorded, and no event outside the messages. -/
def recorded (sets : ServerSets) : Inquiry.Source
  | .sets _ => .ok sets
  | .event _ u => .error (.fetch u (some 404) "not in recording")

/-- The own atom of a recording: that of the first outgoing message's sender, or else the
connection. -/
def ownAtom (connection : Uri) (ms : List Message) : Uri :=
  ((ms.find? (·.isOwn)).bind (·.sender?)).getD connection

/-- The view reconciled with the server's answer, and the entries that could not be resolved. -/
def reconcileRecorded (connection : Uri) (store : Store) (sets : ServerSets) :
    Except SessionError (AgreementView × List Uri) :=
  let inquiry :=
    reconcile connection (ownAtom connection store.chronological) store defaultMaxDepth none
  match inquiry.run (recorded sets) with
  | .ok r => .ok (r.view, r.failures.keys)
  | .error e => .error (.agreement e)

/-- The report on the messages of a connection. -/
def entries (backlinks : Backlinks) (state : ConnectionState) (ms : List Message) :
    List ReportEntry :=
  ms.map fun m =>
    let status := backlinks.status m
    ⟨m.uri, m.kind, m.direction, status, m.shownAs status, Action.permitted m status state⟩

/-- Evaluates a recording: a page of messages and, if it was recorded, the server's answer. -/
def ofRecording (connection : Uri) (messages : String) (protocol : Option String) :
    Except SessionError Report :=
  match Message.parsePage messages with
  | .error e => .error (.negotiation e)
  | .ok ms =>
    let store := Store.ofList ms
    let state := (Lifecycle.ofHistory store.chronological).state
    let report : Report :=
      { connection := connection
        state := state
        messages := entries store.backlinks state store.chronological
        localView := store.backlinks.localView
        reconciled := none
        unresolved := [] }
    match protocol with
    | none => .ok report
    | some text =>
      match ServerSets.parse? text with
      | none => .error (.agreement (.negotiation .malformed))
      | some sets =>
        match reconcileRecorded connection store sets with
        | .ok (view, unresolved) =>
          .ok { report with reconciled := some view, unresolved := unresolved }
        | .error e => .error e

/-- Evaluates a recording on files. The files are read before anything is evaluated. -/
def ofFiles (readFile : String → Option String) (connection : Uri) (messages : String)
    (protocol : Option String) : Except SessionError Report :=
  match readFile messages with
  | none => .error .io
  | some messages =>
    match protocol with
    | none => ofRecording connection messages none
    | some path =>
      match readFile path with
      | none => .error .io
      | some text => ofRecording connection messages (some text)

end Report

end Parley
