/-
The load state of every remote resource the client knows about. A fetch is claimed before it is
made, and its completion counts only while the claim stands: after a reset or a deletion a late
result finds no claim and is dropped. Every change raises the version.
-/
import Parley.Loading.Record
import Parley.Message.Basic

namespace Parley.Loading

/-- The outcome of claiming a fetch. -/
inductive Claim where
  /-- The caller owns the fetch and has to report its outcome. -/
  | started
  /-- Another fetch is in flight. -/
  | alreadyLoading
  deriving DecidableEq

/-- The outcome of reporting a failed fetch. -/
inductive Failure where
  /-- The resource is recorded as failed. -/
  | failed
  /-- The resource was deleted on the node, and these records are removed. -/
  | gone (removed : List (ResourceKind × Uri))
  /-- No fetch was in flight any more. -/
  | stale
  deriving DecidableEq

/-- The load records of every known resource. -/
structure Tracker where
  atoms : UriMap AtomRecord
  containers : UriMap LoadRecord
  connections : UriMap ConnectionRecord
  external : UriMap LoadRecord
  /-- The number of failures after which a data set is not fetched again. -/
  maxFailures : Nat
  /-- Grows with every change. -/
  version : Nat
  deriving DecidableEq

namespace Tracker

/-- The number of failures allowed unless configured otherwise. -/
def defaultMaxFailures : Nat := 3

/-- The tracker that knows nothing. -/
def empty (maxFailures : Nat) : Tracker := ⟨∅, ∅, ∅, ∅, maxFailures, 0⟩

/-- The tracker with one more change counted. -/
def bump (t : Tracker) : Tracker :=
  { t with version := t.version + 1 }

/-- The tracker with everything forgotten. -/
def forgetAll (t : Tracker) : Tracker :=
  { t with atoms := ∅, containers := ∅, connections := ∅, external := ∅ }.bump

/-! ## The fetch cycle -/

/-- The load record of a resource. -/
def load? (t : Tracker) : ResourceKind → Uri → Option LoadRecord
  | .atom, u => (t.atoms.get? u).map (·.load)
  | .container, u => t.containers.get? u
  | .connection, u => (t.connections.get? u).map (·.load)
  | .external, u => t.external.get? u

/-- The tracker with the load record of a resource set; an unknown resource becomes known. -/
def setLoad (t : Tracker) (kind : ResourceKind) (u : Uri) (l : LoadRecord) : Tracker :=
  match kind with
  | .atom => { t with atoms := t.atoms.upsert u .fresh fun a => { a with load := l } }
  | .container => { t with containers := t.containers.insert u l }
  | .connection =>
    { t with connections := t.connections.upsert u .fresh fun c => { c with load := l } }
  | .external => { t with external := t.external.insert u l }

/-- The phase of a resource. -/
def phase? (t : Tracker) (kind : ResourceKind) (u : Uri) : Option Phase :=
  (t.load? kind u).map (·.phase)

/-- Whether the resource has a record. -/
def knows (t : Tracker) (kind : ResourceKind) (u : Uri) : Bool :=
  (t.load? kind u).isSome

/-- Whether the resource is in the phase. -/
def isIn (t : Tracker) (phase : Phase) (kind : ResourceKind) (u : Uri) : Bool :=
  t.phase? kind u = some phase

/-- What the node said about the last fetch. -/
def status? (t : Tracker) (kind : ResourceKind) (u : Uri) : Option FetchAnswer :=
  (t.load? kind u).bind (·.status)

/-- The identifiers of the records of a kind. -/
def known (t : Tracker) : ResourceKind → List Uri
  | .atom => t.atoms.keys
  | .container => t.containers.keys
  | .connection => t.connections.keys
  | .external => t.external.keys

/-- The resources of a kind that wait to be fetched. -/
def flagged (t : Tracker) (kind : ResourceKind) : List Uri :=
  (t.known kind).filter fun u => t.isIn .toLoad kind u

/-- Flags a resource for loading, unless it is known or its identifier is blank. -/
def flag (t : Tracker) (kind : ResourceKind) (u : Uri) : Bool × Tracker :=
  if u.isBlank || t.knows kind u then (false, t)
  else (true, (t.setLoad kind u ⟨.toLoad, none⟩).bump)

/-- Claims the fetch of a resource. -/
def claim (t : Tracker) (kind : ResourceKind) (u : Uri) : Claim × Tracker :=
  if t.isIn .loading kind u then (.alreadyLoading, t)
  else (.started, (t.setLoad kind u ⟨.loading, none⟩).bump)

/-- Completes a fetch, if it is still in flight. -/
def complete (t : Tracker) (kind : ResourceKind) (u : Uri) (status : Option FetchAnswer) :
    Bool × Tracker :=
  if t.isIn .loading kind u then (true, (t.setLoad kind u ⟨.loaded, status⟩).bump)
  else (false, t)

/-! ## Deletion -/

/-- The connections bound to an atom. -/
def connectionsOwnedBy (t : Tracker) (atom : Uri) : List Uri :=
  (t.connections.filter fun _ c => c.atom = some atom).keys

/-- Removes an atom with its container and every connection bound to it. The answer lists what was
removed. -/
def forgetAtom (t : Tracker) (atom : Uri) : List (ResourceKind × Uri) × Tracker :=
  let removed :=
    (if t.atoms.contains atom then [(ResourceKind.atom, atom)] else []) ++
      (if t.containers.contains atom then [(ResourceKind.container, atom)] else []) ++
      (t.connectionsOwnedBy atom).map fun c => (ResourceKind.connection, c)
  (removed,
    { t with
      atoms := t.atoms.erase atom
      containers := t.containers.erase atom
      connections := t.connections.filter fun _ c => c.atom ≠ some atom }.bump)

/-- Removes a connection. The answer lists what was removed. -/
def forgetConnection (t : Tracker) (connection : Uri) : List (ResourceKind × Uri) × Tracker :=
  (if t.connections.contains connection then [(ResourceKind.connection, connection)] else [],
    { t with connections := t.connections.erase connection }.bump)

/-- Records a failed fetch. A resource that was deleted on the node is removed whether or not a
fetch is in flight; only external documents are kept. Any other failure counts while the fetch is in
flight. -/
def fail (t : Tracker) (kind : ResourceKind) (u : Uri) (status : FetchAnswer) :
    Failure × Tracker :=
  if status.saysGone && kind ≠ .external then
    let (removed, t) := if kind = .connection then t.forgetConnection u else t.forgetAtom u
    (.gone removed, t)
  else if t.isIn .loading kind u then
    (.failed, (t.setLoad kind u ⟨.failedToLoad, some status⟩).bump)
  else (.stale, t)

/-! ## Atoms -/

/-- Records that an edit of an atom is being submitted. -/
def beginEdit (t : Tracker) (u : Uri) : Tracker :=
  { t with atoms := t.atoms.upsert u .fresh fun a => { a with updating := true } }.bump

/-- Records that an edit of an atom is done. -/
def endEdit (t : Tracker) (u : Uri) : Tracker :=
  if t.atoms.contains u then
    { t with atoms := t.atoms.modify u fun a => { a with updating := false } }.bump
  else t

/-- Flags the atoms behind the sockets of a message for loading; a node's answer names none. -/
def flagParticipants (t : Tracker) (m : Message) : Tracker :=
  match m.kind with
  | .response _ => t
  | _ => (m.sender?.toList ++ m.recipient?.toList).foldl (fun t u => (t.flag .atom u).2) t

/-! ## Connections -/

/-- The tracker with a known connection bound to the atom owning it. -/
def bindConnection (t : Tracker) (connection atom : Uri) : Tracker :=
  { t with connections := t.connections.modify connection fun c => { c with atom := some atom } }

/-- Takes in one connection of an atom's container: the connection is flagged for loading and bound
to the atom, and its target atom is flagged too. -/
def addListed (atom : Uri) (t : Tracker) (listed : Uri × Option Uri) : Tracker :=
  let t := ((t.flag .connection listed.1).2).bindConnection listed.1 atom
  match listed.2 with
  | some target => (t.flag .atom target).2
  | none => t

/-- Completes the fetch of an atom's container, which lists connections with their target atoms. -/
def completeContainer (t : Tracker) (atom : Uri) (connections : List (Uri × Option Uri)) :
    Bool × Tracker :=
  match t.complete .container atom none with
  | (false, t) => (false, t)
  | (true, t) => (true, connections.foldl (addListed atom) t)

/-- Binds a connection to the atom owning it; an unknown connection becomes known. -/
def assignOwner (t : Tracker) (connection atom : Uri) : Tracker :=
  { t with
    connections := t.connections.upsert connection .fresh fun c =>
      { c with atom := some atom } }.bump

/-- The tracker with the record of a connection set, counted as a change. -/
def setConnection (t : Tracker) (connection : Uri) (c : ConnectionRecord) : Tracker :=
  { t with connections := t.connections.insert connection c }.bump

/-- Claims the fetch of the next message page of a connection. -/
def claimPage (t : Tracker) (connection : Uri) : Claim × Tracker :=
  let c := t.connections.getD connection .fresh
  if c.loadingMessages then (.alreadyLoading, t)
  else
    (.started, t.setConnection connection
      { c with loadingMessages := true, load := { c.load with status := none } })

/-- Completes a message page; the messages on it are no longer marked as failed. -/
def completePage (t : Tracker) (connection : Uri) (messages : List Uri) (nextPage : Option String) :
    Bool × Tracker :=
  match t.connections.get? connection with
  | some c =>
    if c.loadingMessages then
      (true, t.setConnection connection
        { c with
          loadingMessages := false
          nextPage := nextPage
          failedMessages := c.failedMessages.filter fun u _ => u ∉ messages })
    else (false, t)
  | none => (false, t)

/-- Records a failed message page; each of the messages is marked as failed. -/
def failPage (t : Tracker) (connection : Uri) (messages : List Uri) (nextPage : Option String)
    (status : FetchAnswer) : Bool × Tracker :=
  match t.connections.get? connection with
  | some c =>
    if c.loadingMessages then
      (true, t.setConnection connection
        { c with
          loadingMessages := false
          nextPage := nextPage
          failedMessages := messages.foldl (fun f u => f.insert u status) c.failedMessages
          load := { c.load with status := some status } })
    else (false, t)
  | none => (false, t)

/-! ## Data sets of a connection -/

/-- Claims the fetch of a data set. -/
def claimDataSet (t : Tracker) (connection : Uri) (s : DataSet) : Claim × Tracker :=
  let c := t.connections.getD connection .fresh
  if (c.dataSet s).loading then (.alreadyLoading, t)
  else (.started, t.setConnection connection (c.setDataSet { c.dataSet s with loading := true } s))

/-- Completes the fetch of a data set. -/
def completeDataSet (t : Tracker) (connection : Uri) (s : DataSet) : Bool × Tracker :=
  match t.connections.get? connection with
  | some c =>
    if (c.dataSet s).loading then
      (true, t.setConnection connection (c.setDataSet ⟨false, true, 0, false⟩ s))
    else (false, t)
  | none => (false, t)

/-- Records a failed fetch of a data set. The answer is the number of failures since the last
success. -/
def failDataSet (t : Tracker) (connection : Uri) (s : DataSet) : Option Nat × Tracker :=
  match t.connections.get? connection with
  | some c =>
    let r := c.dataSet s
    if r.loading then
      (some (r.failCount + 1), t.setConnection connection
        (c.setDataSet { r with loading := false, failCount := r.failCount + 1 } s))
    else (none, t)
  | none => (none, t)

/-- Whether a data set may be fetched again. -/
def mayRetry (t : Tracker) (connection : Uri) (s : DataSet) : Bool :=
  (t.connections.get? connection).all fun c => (c.dataSet s).failCount < t.maxFailures

/-- Records that the petri net data of a known connection is outdated. -/
def invalidatePetriNet (t : Tracker) (connection : Uri) : Tracker :=
  match t.connections.get? connection with
  | some c =>
    t.setConnection connection { c with petriNetData := { c.petriNetData with dirty := true } }
  | none => t

/-! ## What a load record is after a change -/

/-- Only the record that is set changes. -/
theorem load?_setLoad (t : Tracker) (k k' : ResourceKind) (u v : Uri) (l : LoadRecord) :
    (t.setLoad k u l).load? k' v = if k' = k ∧ v = u then some l else t.load? k' v := by
  cases k <;> cases k' <;> by_cases h : v = u <;> simp [setLoad, load?, h]

@[simp] theorem load?_bump (t : Tracker) (k : ResourceKind) (u : Uri) :
    t.bump.load? k u = t.load? k u := by
  cases k <;> rfl

end Tracker

end Parley.Loading
