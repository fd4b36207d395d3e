/-
Questions about agreements whose answers come from elsewhere. An inquiry is a tree: it has its
result, or it asks for the server's sets of a connection or for one event and goes on with the
answer. The same inquiry runs over the network, over a recording or over a table.
-/
import Parley.Agreement.ServerSets
import Parley.Error

namespace Parley

/-- What can go wrong when agreement data is reconciled. -/
inductive AgreementError where
  /-- A resource could not be delivered. -/
  | fetch (uri : Uri) (status : Option Nat) (reason : String)
  /-- What was delivered is no protocol data. -/
  | negotiation (cause : NegotiationError)
  /-- Following the copies of an event led back to a copy already seen. -/
  | cycle (uri : Uri)
  /-- Following the copies of an event took too many steps. -/
  | depthExceeded (uri : Uri) (depth : Nat)
  deriving DecidableEq

/-- The text an error is reported with. -/
def AgreementError.message : AgreementError → String
  | .fetch uri _ reason => "failed to fetch " ++ uri.text ++ ": " ++ reason
  | .negotiation cause => "protocol error: " ++ cause.message
  | .cycle uri => "mirror chain of " ++ uri.text ++ " is cyclic"
  | .depthExceeded uri depth =>
    "mirror chain of " ++ uri.text ++ " exceeds depth " ++ toString depth

/-- One question. -/
inductive Question where
  /-- The server's sets of a connection. -/
  | sets (connection : Uri)
  /-- One event, as an atom sees it. -/
  | event (requester uri : Uri)
  deriving DecidableEq

/-- What an answer holds when there is one. -/
def Question.Answer : Question → Type
  | .sets _ => ServerSets
  | .event _ _ => Message

/-- A computation that asks questions. -/
inductive Inquiry (α : Type) where
  | done (a : α)
  | ask (q : Question) (next : Except AgreementError q.Answer → Inquiry α)

namespace Inquiry

/-- The second computation on the result of the first. -/
def bind {α β : Type} : Inquiry α → (α → Inquiry β) → Inquiry β
  | .done a, f => f a
  | .ask q next, f => .ask q fun answer => (next answer).bind f

instance : Monad Inquiry where
  pure := .done
  bind := bind

/-- Asks one question. -/
def answer (q : Question) : Inquiry (Except AgreementError q.Answer) :=
  .ask q .done

/-- Someone who answers every question, always in the same way. -/
abbrev Source := (q : Question) → Except AgreementError q.Answer

/-- The result when a source answers. -/
def run {α : Type} (source : Source) : Inquiry α → α
  | .done a => a
  | .ask q next => (next (source q)).run source

/-- The questions asked, in order, when a source answers. -/
def questions {α : Type} (source : Source) : Inquiry α → List Question
  | .done _ => []
  | .ask q next => q :: (next (source q)).questions source

theorem run_bind {α β : Type} (source : Source) (i : Inquiry α) (f : α → Inquiry β) :
    (i.bind f).run source = (f (i.run source)).run source := by
  induction i with
  | done a => rfl
  | ask q next ih => exact ih (source q)

theorem questions_bind {α β : Type} (source : Source) (i : Inquiry α) (f : α → Inquiry β) :
    (i.bind f).questions source =
      i.questions source ++ (f (i.run source)).questions source := by
  induction i with
  | done a => rfl
  | ask q next ih => exact congrArg (q :: ·) (ih (source q))

end Inquiry

end Parley
