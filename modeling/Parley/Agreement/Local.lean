/-
The agreement view that the local messages alone give. Once every message is loaded it is the view
the owner's server computes.
-/
import Parley.Action.Rules
import Parley.Agreement.View

namespace Parley

namespace Backlinks

/-- The names of the messages whose status passes a test. -/
def select (b : Backlinks) (p : Message → MessageStatus → Bool) : UriSet :=
  UriSet.ofList ((b.store.toList.filter fun m => p m (b.status m)).map (·.uri))

theorem mem_select {b : Backlinks} {p : Message → MessageStatus → Bool} {u : Uri} :
    u ∈ b.select p ↔ ∃ m ∈ b.store.toList, p m (b.status m) = true ∧ m.uri = u := by
  simp [select, and_assoc]

/-- The agreement view of the messages in the store, in which every entry is its own copy. -/
def localView (b : Backlinks) : AgreementView :=
  let s : AgreementView :=
    { agreements := b.select fun _ status => status.agreed
      pendingProposals := b.select fun m status =>
        m.isOpenOffer status && m.references.has .proposes
      cancellationPending := b.select fun _ status => status.cancellationPending
      cancelled := b.select fun _ status => status.cancelled
      acceptedCancellations := b.select fun m status =>
        status.accepted && m.references.has .proposesToCancel
      rejected := b.select fun _ status => status.rejected
      retracted := b.select fun _ status => status.retracted
      refs := ∅ }
  { s with refs := .ofList (s.openEntries.map fun u => (u, .single u)) }

end Backlinks

end Parley
