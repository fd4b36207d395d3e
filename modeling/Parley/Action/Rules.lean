/-
Which negotiation actions a message qualifies for, and how it is shown. Every action needs a
connected connection and a message with content that is neither a connect nor a change notification.
-/
import Parley.Error
import Parley.Store.Status

namespace Parley

namespace Message

/-- Whether the message proposes, claims or proposes to cancel something. -/
def isOffer (m : Message) : Bool :=
  m.references.has .claims || m.references.has .proposes || m.references.has .proposesToCancel

/-- Whether actions may refer to the message at all. -/
def admitsActions (m : Message) : Bool :=
  m.hasContent && m.kind ≠ .connect && m.kind ≠ .changeNotification

/-- Whether the message could be agreed on: nothing has happened to its offer yet. -/
def isOpenOffer (m : Message) (status : MessageStatus) : Bool :=
  m.hasContent && m.isOffer && !status.isDecided

/-- Whether an accepted message could still be proposed for cancellation. -/
def admitsCancellation (m : Message) (status : MessageStatus) : Bool :=
  m.isOffer && status.accepted && !status.cancelled && !status.cancellationPending

/-- An open claim. -/
def isOpenClaim (m : Message) (status : MessageStatus) : Bool :=
  !status.isDecided && m.references.has .claims

/-- An open proposal, or an open proposal to cancel. -/
def isOpenProposal (m : Message) (status : MessageStatus) : Bool :=
  !status.isDecided && (m.references.has .proposes || m.references.has .proposesToCancel)

/-- How a message is shown; one that both claims and proposes is shown as a claim. -/
def shownAs (m : Message) (status : MessageStatus) : Classification :=
  if m.isOpenClaim status then .claim
  else if m.isOpenProposal status then .proposal
  else if status.agreed then .agreement
  else .plain

end Message

namespace Action

/-- What an action asks of the message itself. -/
def qualifies (m : Message) (status : MessageStatus) : Action → Bool
  | .propose => m.references.isEmpty && !(status.retracted || status.rejected)
  | .claim => m.references.isEmpty && !(status.retracted || status.rejected) && !m.isOwn
  | .accept => m.isOffer && !m.isOwn && !status.isDecided
  | .reject => m.isOffer && !m.isOwn && !status.isDecided
  | .retract => m.isOwn && !status.isDecided
  | .proposeToCancel => m.admitsCancellation status

/-- Whether an action may be taken on a message. -/
def isPermitted (a : Action) (m : Message) (status : MessageStatus) (state : ConnectionState) :
    Bool :=
  state = .connected && m.admitsActions && a.qualifies m status

/-- Every action that may be taken on a message. -/
def permitted (m : Message) (status : MessageStatus) (state : ConnectionState) : List Action :=
  all.filter fun a => a.isPermitted m status state

/-- Refuses an action that may not be taken. -/
def check (a : Action) (m : Message) (status : MessageStatus) (state : ConnectionState) :
    Except NegotiationError Unit :=
  if a.isPermitted m status state then .ok () else .error (.actionNotAllowed a m.uri)

end Action

end Parley
