/-
The inverse of the references in a store: which messages point at a given one, per kind. A reference
may use either name of its target, so a look-up consults both. References to messages that are not
in the store stay in the index and match nothing until the message arrives.
-/
import Parley.Store.Basic

namespace Parley

/-- A store with the inverse of its references: per kind and identifier, the messages that point at
the identifier, in order of name. -/
structure Backlinks where
  store : Store
  table : ByKind (UriMap (List Message))

namespace Backlinks

/-- The index with one reference of a message added. -/
def addReference (m : Message) (table : ByKind (UriMap (List Message)))
    (r : ReferenceKind × Uri) : ByKind (UriMap (List Message)) :=
  table.modify r.1 fun byTarget => byTarget.upsert r.2 [] fun ms => ms ++ [m]

/-- The index with every reference of a message added. -/
def addMessage (table : ByKind (UriMap (List Message))) (m : Message) :
    ByKind (UriMap (List Message)) :=
  m.references.pairs.foldl (addReference m) table

/-- The index without references. -/
def noReferences : ByKind (UriMap (List Message)) :=
  ByKind.ofFn fun _ => ∅

/-- Indexes every reference in the store; the messages come in order of name, so each list of
the index is in that order too. -/
def ofStore (s : Store) : Backlinks :=
  ⟨s, s.toList.foldl addMessage noReferences⟩

/-- The messages that point at a target under a kind: first those that use its local name, then
those that use its remote name only. -/
def sources (b : Backlinks) (target : Message) (k : ReferenceKind) : List Message :=
  let byTarget := b.table.get k
  let byName := byTarget.getD target.uri []
  match target.remoteUri with
  | none => byName
  | some r => byName ++ (byTarget.getD r []).filter fun m => byName.all fun n => n.uri ≠ m.uri

/-- Whether anything points at a target under a kind. -/
def hasSource (b : Backlinks) (target : Message) (k : ReferenceKind) : Bool :=
  let byTarget := b.table.get k
  byTarget.contains target.uri || target.remoteUri.any byTarget.contains

/-- The messages in the store that a source points at under a kind. -/
def targets (b : Backlinks) (source : Message) (k : ReferenceKind) : List Message :=
  (source.references.get k).toList.filterMap b.store.find?

/-- The references to identifiers under which no message is known, by kind and then by identifier.
-/
def missing (b : Backlinks) : List (ReferenceKind × Uri) :=
  ReferenceKind.all.flatMap fun k =>
    ((b.table.get k).keys.filter fun u => !b.store.contains u).map fun u => (k, u)

end Backlinks

/-- The current messages with the inverse of their references. -/
def Store.backlinks (s : Store) : Backlinks :=
  .ofStore s

end Parley
