/-
Reconciling the agreement data of a connection with the owner's server. The server's sets are made
disjoint; every open entry is resolved to the two ends of its chain of copies, where the own copy of
an event that is addressed to the own atom is followed to its counterpart; entries that were
rejected or retracted are dropped at the end. Only a failure to get the sets fails the whole; an
entry that cannot be resolved is reported and the others go on.
-/
import Parley.Agreement.Inquiry
import Parley.Store.Basic

namespace Parley

/-- The result of a reconciliation. -/
structure Reconciliation where
  view : AgreementView
  /-- The events that were asked for, by name. -/
  fetched : List Message
  /-- The entries that could not be resolved. -/
  failures : UriMap AgreementError
  /-- Whether rejected or retracted proposals were dropped. -/
  pruned : Bool
  /-- Whether the view differs from the one before. -/
  changed : Bool

namespace Message

/-- The remote name under which the copy of an event goes on: that of an own message to the own
atom. -/
def nextCopy? (m : Message) (ownAtom : Uri) : Option Uri :=
  if m.isOwn && m.recipient? = some ownAtom then m.remoteUri else none

theorem nextCopy?_eq_some_iff {m : Message} {ownAtom u : Uri} :
    m.nextCopy? ownAtom = some u ↔
      m.direction = .outgoing ∧ m.recipient? = some ownAtom ∧ m.remoteUri = some u := by
  simp [nextCopy?, isOwn, and_assoc]

end Message

/-- What the resolution of an entry depends on, apart from the answers. -/
structure Resolver where
  ownAtom : Uri
  /-- The messages that need not be asked for. -/
  store : Store
  /-- The greatest number of copies looked at per entry. -/
  maxDepth : Nat

namespace Resolver

/-- The outcome of one resolution, and the events asked for so far under the names used. -/
abbrev Outcome := Except AgreementError ChainEnds × UriMap Message

/-- The event of a name: from the store, else from the events asked for before, else by asking. -/
def lookUp (r : Resolver) (u : Uri) (cache : UriMap Message) :
    Inquiry (Except AgreementError Message × UriMap Message) :=
  match (r.store.find? u).or (cache.get? u) with
  | some m => .done (.ok m, cache)
  | none =>
    .ask (.event r.ownAtom u) fun
      | .ok m => .done (.ok m, cache.insert u m)
      | .error e => .done (.error e, cache)

/-- Follows the copies of the entry `start` from the name `current` for at most a number of steps;
`head` is the first copy found, and the names in `visited` were looked at before. -/
def follow (r : Resolver) (start : Uri) :
    (steps : Nat) → (head : Option Uri) → (current : Uri) → (visited : List Uri) →
      (cache : UriMap Message) → Inquiry Outcome
  | 0, _, _, _, cache => .done (.error (.depthExceeded start r.maxDepth), cache)
  | steps + 1, head, current, visited, cache =>
    if current ∈ visited then .done (.error (.cycle start), cache)
    else
      (r.lookUp current cache).bind fun
        | (.error e, cache) => .done (.error e, cache)
        | (.ok m, cache) =>
          match m.nextCopy? r.ownAtom with
          | some remote =>
            r.follow start steps (head.or (some m.uri)) remote (current :: visited) cache
          | none => .done (.ok ⟨head.getD m.uri, m.uri⟩, cache)

/-- The two ends of the chain of copies of an entry. -/
def resolve (r : Resolver) (u : Uri) (cache : UriMap Message) : Inquiry Outcome :=
  r.follow u r.maxDepth none u [] cache

/-- What has been found out about the entries so far. -/
structure Findings where
  refs : UriMap ChainEnds
  failures : UriMap AgreementError
  cache : UriMap Message

/-- Nothing found out yet. -/
def Findings.none : Findings := ⟨∅, ∅, ∅⟩

/-- The findings with the outcome of one more entry. -/
def Findings.record (f : Findings) (u : Uri) : Outcome → Findings
  | (.ok ends, cache) => { f with refs := f.refs.insert u ends, cache := cache }
  | (.error e, cache) => { f with failures := f.failures.insert u e, cache := cache }

/-- Resolves entries one after another. -/
def resolveAll (r : Resolver) : List Uri → Findings → Inquiry Findings
  | [], f => .done f
  | u :: us, f => (r.resolve u f.cache).bind fun outcome => r.resolveAll us (f.record u outcome)

end Resolver

namespace Message

/-- The messages of a list by name. -/
def byName (ms : List Message) : List Message :=
  ms.mergeSort fun a b => !(b.uri < a.uri)

end Message

namespace Reconciliation

/-- The result of reconciling the server's sets with what was found out about their entries. -/
def ofFindings (sets : ServerSets) (f : Resolver.Findings) (previous : Option AgreementView) :
    Reconciliation :=
  let resolved := { sets.view with refs := f.refs }
  let view := resolved.withoutRevoked
  { view := view
    fetched := Message.byName f.cache.values
    failures := f.failures
    pruned := resolved.hasRevoked
    changed := previous.all fun p => p.digest ≠ view.digest }

end Reconciliation

/-- The greatest number of copies looked at per entry unless configured otherwise. -/
def defaultMaxDepth : Nat := 8

/-- Reconciles the agreement data of a connection. The view before only decides whether the result
counts as changed; at least one copy is looked at per entry. -/
def reconcile (connection ownAtom : Uri) (store : Store) (maxDepth : Nat)
    (previous : Option AgreementView) : Inquiry (Except AgreementError Reconciliation) :=
  .ask (.sets connection) fun
    | .error e => .done (.error e)
    | .ok (sets : ServerSets) =>
      let r : Resolver := ⟨ownAtom, store, max maxDepth 1⟩
      (r.resolveAll sets.view.openEntries .none).bind fun f =>
        .done (.ok (.ofFindings sets f previous))

end Parley
