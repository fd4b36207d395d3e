/-
The status of a message, derived from who points at it and never stored, so that messages may arrive
in any order.

A message is rejected when some message rejects it, and retracted when it is outgoing and some
outgoing message retracts it: only the author may retract. It is proposed or claimed when something
proposes or claims it and it is neither rejected nor retracted. It is accepted when a message with
content that is itself neither rejected nor retracted accepts it. Its cancellations are the
messages, neither rejected nor retracted, that propose to cancel it or one of those accepts. An
accepted message is cancelled when one of its cancellations is accepted, its cancellation is pending
when there is one and none is accepted, and it is agreed when there is none.
-/
import Parley.Store.Backlinks

namespace Parley

/-- The status of a message. -/
structure MessageStatus where
  proposed : Bool
  claimed : Bool
  accepted : Bool
  agreed : Bool
  rejected : Bool
  retracted : Bool
  cancelled : Bool
  cancellationPending : Bool
  deriving DecidableEq

namespace MessageStatus

/-- The parts of a status with their names. -/
def named (s : MessageStatus) : List (String × Bool) :=
  [("isProposed", s.proposed), ("isClaimed", s.claimed), ("isAccepted", s.accepted),
    ("isAgreed", s.agreed), ("isRejected", s.rejected), ("isRetracted", s.retracted),
    ("isCancelled", s.cancelled), ("isCancellationPending", s.cancellationPending)]

/-- Something final happened to the message, or is under way. -/
def isDecided (s : MessageStatus) : Bool :=
  s.accepted || s.agreed || s.cancelled || s.cancellationPending || s.retracted || s.rejected

end MessageStatus

namespace Backlinks

/-- Some message rejects it. -/
def isRejected (b : Backlinks) (m : Message) : Bool :=
  b.hasSource m .rejects

/-- It is outgoing and some outgoing message retracts it. -/
def isRetracted (b : Backlinks) (m : Message) : Bool :=
  m.isOwn && (b.sources m .retracts).any (·.isOwn)

/-- It is rejected or retracted. -/
def isRevoked (b : Backlinks) (m : Message) : Bool :=
  b.isRejected m || b.isRetracted m

/-- The accepts of a message that count: with content, and not revoked. -/
def acceptances (b : Backlinks) (m : Message) : List Message :=
  (b.sources m .accepts).filter fun a => a.hasContent && !b.isRevoked a

/-- The list with the messages of another list that it has no message of the same name of. -/
def addMissing (ms more : List Message) : List Message :=
  more.foldl (fun ms c => if ms.any (·.uri = c.uri) then ms else ms ++ [c]) ms

/-- The cancellations of a message with the given valid accepts. -/
def cancellations (b : Backlinks) (m : Message) (accepts : List Message) : List Message :=
  let proposals := accepts.foldl (fun ms a => addMissing ms (b.sources a .proposesToCancel))
    (b.sources m .proposesToCancel)
  proposals.filter fun c => !b.isRevoked c

/-- The status of a message. -/
def status (b : Backlinks) (m : Message) : MessageStatus :=
  let rejected := b.isRejected m
  let retracted := b.isRetracted m
  let revoked := rejected || retracted
  let accepts := b.acceptances m
  let accepted := !accepts.isEmpty
  let cancellations := b.cancellations m accepts
  let cancelled := accepted && cancellations.any fun c => !(b.acceptances c).isEmpty
  let pending := accepted && !cancelled && !cancellations.isEmpty
  { proposed := !revoked && b.hasSource m .proposes
    claimed := !revoked && b.hasSource m .claims
    accepted := accepted
    agreed := accepted && !pending && !cancelled
    rejected := rejected
    retracted := retracted
    cancelled := cancelled
    cancellationPending := pending }

/-- The status of the message known under an identifier. -/
def statusUnder? (b : Backlinks) (u : Uri) : Option MessageStatus :=
  (b.store.find? u).map b.status

end Backlinks

end Parley
