/-
What can go wrong in a negotiation, as causes, and the one text each cause is reported with.
-/
import Parley.Action.Basic
import Parley.Lifecycle.State
import Parley.Text.Quoted

namespace Parley

/-- Why a record is no usable message. -/
inductive InvalidMessage where
  | blankUri
  | unsupportedType (localName : String)
  deriving DecidableEq

/-- What can go wrong in a negotiation. -/
inductive NegotiationError where
  /-- The connection's state does not allow the event. -/
  | invalidTransition (event : LifecycleEvent) (state : ConnectionState)
  /-- The message does not qualify for the action. -/
  | actionNotAllowed (action : Action) (uri : Uri)
  /-- The connection's state does not allow a message of this kind. -/
  | sendNotAllowed (kind : MessageKind) (state : ConnectionState)
  /-- No message is known under the identifier. -/
  | unknownMessage (uri : Uri)
  | invalidMessage (cause : InvalidMessage)
  /-- A text is not JSON or has the wrong shape. -/
  | malformed
  deriving DecidableEq

/-- The text of a cause. -/
def InvalidMessage.message : InvalidMessage → String
  | .blankUri => "message without uri"
  | .unsupportedType t => "unsupported message type " ++ Text.Quoted.quote t

/-- The text an error is reported with. -/
def NegotiationError.message : NegotiationError → String
  | .invalidTransition event state =>
    "invalid connection transition: " ++ event.name ++ " is not allowed in state " ++ state.name
  | .actionNotAllowed action uri => action.name ++ " is not allowed on message " ++ uri.text
  | .sendNotAllowed kind state =>
    "cannot send " ++ kind.name ++ " while connection is " ++ state.name
  | .unknownMessage uri => "unknown message: " ++ uri.text
  | .invalidMessage cause => "invalid message: " ++ cause.message
  | .malformed => "malformed wire payload"

end Parley
