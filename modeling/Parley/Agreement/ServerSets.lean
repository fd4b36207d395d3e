/-
What the owner's server answers about the agreements of a connection, and how its sets are made
disjoint: an agreement being cancelled is no agreement, neither of them is a pending proposal, and
neither is a message that was rejected or retracted.
-/
import Parley.Agreement.View
import Parley.Json.Identifier
import Parley.Json.Reader
import Parley.Json.Record

namespace Parley

/-- The server's answer for one connection. -/
structure ServerSets where
  agreementUris : UriSet
  pendingProposalUris : UriSet
  pendingProposals : UriSet
  acceptedCancellationProposalUris : UriSet
  cancellationPendingAgreementUris : UriSet
  pendingCancellationProposalUris : UriSet
  cancelledAgreementUris : UriSet
  rejectedMessageUris : UriSet
  retractedMessageUris : UriSet
  deriving DecidableEq

namespace ServerSets

open Json

/-- The answer with nothing in it. -/
def empty : ServerSets := ⟨∅, ∅, ∅, ∅, ∅, ∅, ∅, ∅, ∅⟩

/-- The names of the sets, in order. -/
def fieldNames : List String :=
  ["agreementUris", "pendingProposalUris", "pendingProposals", "acceptedCancellationProposalUris",
    "cancellationPendingAgreementUris", "pendingCancellationProposalUris",
    "cancelledAgreementUris", "rejectedMessageUris", "retractedMessageUris"]

/-- Reads an answer; a set that is not given is empty. -/
def ofJson? (v : Value) : Option ServerSets := do
  let r ← Record.read? fieldNames v
  let set (name : String) : Option UriSet := r.withDefault? name UriSet.ofJson? ∅
  return {
    agreementUris := ← set "agreementUris"
    pendingProposalUris := ← set "pendingProposalUris"
    pendingProposals := ← set "pendingProposals"
    acceptedCancellationProposalUris := ← set "acceptedCancellationProposalUris"
    cancellationPendingAgreementUris := ← set "cancellationPendingAgreementUris"
    pendingCancellationProposalUris := ← set "pendingCancellationProposalUris"
    cancelledAgreementUris := ← set "cancelledAgreementUris"
    rejectedMessageUris := ← set "rejectedMessageUris"
    retractedMessageUris := ← set "retractedMessageUris" }

/-- Reads the text of an answer. -/
def parse? (text : String) : Option ServerSets :=
  (Json.parse? text).bind ofJson?

/-- The view of an answer, in which the first three sets are disjoint and nothing is resolved. -/
def view (p : ServerSets) : AgreementView :=
  let cancelling := p.cancellationPendingAgreementUris
  let agreed := p.agreementUris.diff cancelling
  { agreements := agreed
    pendingProposals := (p.pendingProposalUris.diff cancelling).diff agreed
    cancellationPending := cancelling
    cancelled := p.cancelledAgreementUris
    acceptedCancellations := p.acceptedCancellationProposalUris
    rejected := p.rejectedMessageUris
    retracted := p.retractedMessageUris
    refs := ∅ }

end ServerSets

namespace AgreementView

/-- A pending proposal that was rejected or retracted. -/
def isRevoked (s : AgreementView) (u : Uri) : Bool :=
  u ∈ s.rejected || u ∈ s.retracted

/-- The view without the pending proposals that were rejected or retracted. -/
def withoutRevoked (s : AgreementView) : AgreementView :=
  { s with
    pendingProposals := s.pendingProposals.filter fun u => !s.isRevoked u
    refs := s.refs.filter fun u _ => !(u ∈ s.pendingProposals && s.isRevoked u) }

/-- Whether pruning removes anything. -/
def hasRevoked (s : AgreementView) : Bool :=
  s.pendingProposals.toList.any s.isRevoked

end AgreementView

end Parley
