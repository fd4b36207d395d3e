/-
The agreement view of one connection: which messages are agreed, proposed, being cancelled or
settled otherwise, and for each open entry the two ends of the chain of copies that realises it. Two
views are compared by a digest of their written form.
-/
import Parley.Digest.Blake3
import Parley.Message.Basic
import Parley.UriMap

namespace Parley

/-- The two ends of the chain of copies that realises an agreement event. -/
structure ChainEnds where
  /-- The first copy reached. -/
  first : Uri
  /-- The most recent copy, the one to show. -/
  latest : Uri
  deriving DecidableEq

/-- An event without further copies. -/
def ChainEnds.single (u : Uri) : ChainEnds := ⟨u, u⟩

/-- The agreement view of one connection. -/
structure AgreementView where
  agreements : UriSet
  pendingProposals : UriSet
  cancellationPending : UriSet
  cancelled : UriSet
  acceptedCancellations : UriSet
  rejected : UriSet
  retracted : UriSet
  /-- The ends of every resolved entry of the first three sets. -/
  refs : UriMap ChainEnds
  deriving DecidableEq

namespace AgreementView

/-- The view with nothing in it. -/
def empty : AgreementView := ⟨∅, ∅, ∅, ∅, ∅, ∅, ∅, ∅⟩

/-- Whether nothing is agreed, proposed or being cancelled. -/
def isEmpty (s : AgreementView) : Bool :=
  s.agreements.isEmpty && s.pendingProposals.isEmpty && s.cancellationPending.isEmpty

/-- The entries that are agreed, proposed or being cancelled. -/
def openEntries (s : AgreementView) : List Uri :=
  s.agreements.toList ++ s.pendingProposals.toList ++ s.cancellationPending.toList

/-- The copy to show for an entry: the one it was resolved to, or else itself. -/
def latestCopy (s : AgreementView) (u : Uri) : Uri :=
  ((s.refs.get? u).map (·.latest)).getD u

/-- Whether a message was overtaken by later events: it was cancelled, rejected or retracted, or is
an accepted cancellation. -/
def isOvertaken (s : AgreementView) (m : Message) : Bool :=
  [s.cancelled, s.acceptedCancellations, s.retracted, s.rejected].any fun set =>
    set.toList.any m.hasName

/-- Whether two views have the same agreements, proposals and cancellations, whatever they resolve
to. -/
def sameEntries (s t : AgreementView) : Bool :=
  s.agreements = t.agreements && s.pendingProposals = t.pendingProposals &&
    s.cancellationPending = t.cancellationPending && s.cancelled = t.cancelled

/-- The seven sets under the names they are written with. -/
def labelled (s : AgreementView) : List (String × UriSet) :=
  [("agreementUris", s.agreements), ("pendingProposalUris", s.pendingProposals),
    ("cancellationPendingAgreementUris", s.cancellationPending),
    ("cancelledAgreementUris", s.cancelled),
    ("acceptedCancellationProposalUris", s.acceptedCancellations),
    ("rejectedMessageUris", s.rejected), ("retractedMessageUris", s.retracted)]

/-! ## The digest -/

/-- A number as a number of octets, the least first. -/
def octetsOf : (width : Nat) → Nat → List UInt8
  | 0, _ => []
  | width + 1, n => n.toUInt8 :: octetsOf width (n / 256)

/-- The octets of a text. -/
def textOctets (s : String) : List UInt8 :=
  s.toUTF8.data.toList

/-- The written form of one member of a set: itself and, if it is resolved, its two ends. -/
def memberOctets (s : AgreementView) (u : Uri) : List UInt8 :=
  textOctets u.text ++ textOctets "\n" ++
    (match s.refs.get? u with
      | some r => textOctets r.first.text ++ textOctets " " ++ textOctets r.latest.text
      | none => []) ++
    textOctets "\n"

/-- The written form of one set: its name, its size in eight octets, and its members. -/
def setOctets (s : AgreementView) (label : String) (set : UriSet) : List UInt8 :=
  textOctets label ++ octetsOf 8 set.size ++ set.toList.flatMap s.memberOctets

/-- The written form of a view. -/
def octets (s : AgreementView) : List UInt8 :=
  s.labelled.flatMap fun (label, set) => s.setOctets label set

/-- The digest of a view. -/
def digest (s : AgreementView) : String :=
  Digest.Blake3.hexDigest s.octets

end AgreementView

end Parley
