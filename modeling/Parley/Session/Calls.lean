/-
The calls of the client: loading what the node has, negotiating over a connection, and keeping the
agreement data of connections up to date.
-/
import Parley.Action.Rules
import Parley.Agreement.Reconcile
import Parley.Session.Program

namespace Parley.Call

open Loading Program

/-! ## Loading -/

/-- The outcome of a load. -/
inductive LoadResult where
  | loaded
  /-- Another call is fetching the same; nothing was done. -/
  | alreadyLoading
  /-- The resource was deleted on the node and removed here. -/
  | gone
  | failed (error : NodeFailure)
  deriving DecidableEq

/-- The outcome of a fetch that failed. -/
def LoadResult.ofError (e : NodeFailure) : LoadResult :=
  if e.saysGone then .gone else .failed e

/-- Changes the load records in one step. -/
def track {α : Type} (f : Tracker → α × Tracker) : Program α :=
  transact fun s => ((f s.tracker).1, { s with tracker := (f s.tracker).2 })

/-- Flags an atom for loading. -/
def flagAtom (u : Uri) : Program Bool :=
  track fun t => t.flag .atom u

/-- Claims a resource, fetches it and folds in what came of it. -/
def load (kind : ResourceKind) (u : Uri) (r : Request) (loaded : r.Answer → Event)
    (failed : NodeFailure → Event) : Program LoadResult := do
  match ← track fun t => t.claim kind u with
  | .alreadyLoading => return .alreadyLoading
  | .started =>
    match ← request r with
    | .ok data =>
      apply (loaded data)
      return .loaded
    | .error e =>
      apply (failed e)
      return .ofError e

/-- Loads an atom. -/
def loadAtom (u : Uri) : Program LoadResult :=
  load .atom u (.fetchAtom u) .atomLoaded (.atomLoadFailed u)

/-- Loads the list of the connections of an atom. -/
def loadContainer (atom : Uri) : Program LoadResult :=
  load .container atom (.fetchContainer atom) (.containerLoaded atom) (.containerLoadFailed atom)

/-- Loads a connection. -/
def loadConnection (u : Uri) : Program LoadResult :=
  load .connection u (.fetchConnection u) .connectionLoaded (.connectionLoadFailed u)

/-- Claims the next page of the messages of a connection; the answer says where the page starts. -/
def claimCursor (u : Uri) (t : Tracker) : Option (Option String) × Tracker :=
  match t.claimPage u with
  | (.alreadyLoading, t) => (none, t)
  | (.started, t) => (some ((t.connections.get? u).bind (·.nextPage)), t)

/-- Loads the next page of the messages of a connection. -/
def loadMessages (u : Uri) : Program LoadResult := do
  match ← track (claimCursor u) with
  | none => return .alreadyLoading
  | some cursor =>
    match ← request (.fetchMessages u cursor) with
    | .ok page =>
      apply (.messagesLoaded u page)
      return .loaded
    | .error e =>
      apply (.messagesLoadFailed u [] cursor e)
      return .failed e

/-- Runs loads one after another and counts those that loaded. -/
def countLoaded : List (Program LoadResult) → Nat → Program Nat
  | [], n => .done n
  | p :: ps, n => p.bind fun outcome => countLoaded ps (if outcome = .loaded then n + 1 else n)

/-- Loads everything that was flagged for loading when the call started. -/
def loadFlagged : Program Nat := do
  let loads ← read fun s =>
    (s.tracker.flagged .atom).map loadAtom ++ (s.tracker.flagged .container).map loadContainer ++
      (s.tracker.flagged .connection).map loadConnection
  countLoaded loads 0

/-! ## Messages -/

/-- A known connection. -/
def connection (s : Session) (u : Uri) : Except SessionError Connection :=
  match s.connections.get? u with
  | some c => .ok c
  | none => .error (.unknownConnection u)

/-- A message of a connection, under either of its names. -/
def message (c : Connection) (u : Uri) : Except SessionError Message :=
  match c.store.find? u with
  | some m => .ok m
  | none => .error (.negotiation (.unknownMessage u))

/-- The status of a message. -/
def statusOf (u event : Uri) : Program (Except SessionError MessageStatus) :=
  read fun s => do
    let c ← connection s u
    let m ← message c event
    return c.store.backlinks.status m

/-- The actions that may be taken on a message. -/
def permittedActions (u event : Uri) : Program (Except SessionError (List Action)) :=
  read fun s => do
    let c ← connection s u
    let m ← message c event
    return Action.permitted m (c.store.backlinks.status m) c.lifecycle.state

/-- How a message is shown. -/
def shownAs (u event : Uri) : Program (Except SessionError Classification) :=
  read fun s => do
    let c ← connection s u
    let m ← message c event
    return m.shownAs (c.store.backlinks.status m)

/-- Takes in a message pushed by the node. -/
def receive (u : Uri) (m : Message) : Program Unit :=
  apply (.messageReceived u m)

/-! ## Sending -/

/-- Refuses what may not be sent: a kind that the connection's state does not allow, and an action
on a message that is not known or does not qualify. -/
def checkIntent (c : Connection) (intent : Intent) : Except NegotiationError Unit :=
  match c.lifecycle.checkSend intent.kind with
  | .error e => .error e
  | .ok () =>
    match intent.action? with
    | none => .ok ()
    | some (action, referenced) =>
      match c.store.find? referenced with
      | none => .error (.unknownMessage referenced)
      | some m => action.check m (c.store.backlinks.status m) c.lifecycle.state

/-- The outgoing message of an intent, if it may be sent. -/
def prepare (settings : Settings) (s : Session) (u : Uri) (intent : Intent) (stamp : Stamp) :
    Except SessionError Dispatch :=
  match connection s u with
  | .error e => .error e
  | .ok c =>
    match checkIntent c intent with
    | .error e => .error (.negotiation e)
    | .ok () => .ok (Envelope.compose ⟨settings.nodeUri, c.socket, c.targetSocket⟩ intent stamp)

/-- Sends a message. It is checked against the current state, then stored as the own copy, then
handed to the node, and at last marked with the outcome. The answer is its identifier. -/
def send (settings : Settings) (u : Uri) (intent : Intent) : Program (Except SessionError Uri) :=
  .stamp fun stamp =>
    .atomic id fun s =>
      match prepare settings s u intent stamp with
      | .error e => .done (.error e)
      | .ok dispatch => do
        let event := dispatch.message.uri
        apply (.messageSent u dispatch.message)
        match ← request (.send u dispatch) with
        | .ok answer =>
          apply (.sendSucceeded u event answer.remoteUri)
          return .ok event
        | .error e =>
          apply (.sendFailed u event)
          return .error (.transport e)

/-! ## Agreements -/

/-- What a reconciliation starts from. -/
structure Inputs where
  store : Store
  previous : Option AgreementView
  ownAtom : Uri

/-- Claims the agreement data of a connection, unless its failures are used up or a reconciliation
is running; the answer holds what the reconciliation starts from. -/
def claimAgreement (u : Uri) (s : Session) :
    Except SessionError (Option Inputs) × Session :=
  match connection s u with
  | .error e => (.error e, s)
  | .ok c =>
    if s.tracker.mayRetry u .agreementData then
      match s.tracker.claimDataSet u .agreementData with
      | (.alreadyLoading, t) => (.ok none, { s with tracker := t })
      | (.started, t) => (.ok (some ⟨c.store, c.agreement, c.atom⟩), { s with tracker := t })
    else (.ok none, s)

/-- Reconciles the agreement data of a connection. There is no result if a reconciliation is running
or the failures are used up. -/
def refreshAgreements (settings : Settings) (u : Uri) :
    Program (Except SessionError (Option Reconciliation)) := do
  match ← transact (claimAgreement u) with
  | .error e => return .error e
  | .ok none => return .ok none
  | .ok (some inputs) =>
    match ← ofInquiry settings
        (reconcile u inputs.ownAtom inputs.store settings.maxDepth inputs.previous) with
    | .ok r =>
      apply (.agreementReconciled u r.view r.fetched)
      return .ok (some r)
    | .error e =>
      apply (.agreementFailed u)
      return .error (.agreement e)

/-- Reconciles connections one after another. -/
def refreshEach (settings : Settings) :
    List Uri → Program (List (Uri × Except SessionError (Option Reconciliation)))
  | [] => .done []
  | u :: us =>
    (refreshAgreements settings u).bind fun result =>
      (refreshEach settings us).bind fun results => .done ((u, result) :: results)

/-- Reconciles every connection that was flagged when the call started. -/
def refreshStale (settings : Settings) :
    Program (List (Uri × Except SessionError (Option Reconciliation))) := do
  let stale ← read fun s => (s.connections.filter fun _ c => c.agreementStale).keys
  refreshEach settings stale

/-- Forgets everything. -/
def logout : Program Unit :=
  apply .loggedOut

end Parley.Call
