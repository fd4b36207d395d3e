/-
What can go wrong in a call of the client, as causes, and the one text each is reported with.
-/
import Parley.Agreement.Inquiry
import Parley.Session.Data

namespace Parley

/-- What can go wrong in a call of the client. -/
inductive SessionError where
  | negotiation (cause : NegotiationError)
  | agreement (cause : AgreementError)
  | transport (cause : NodeFailure)
  | unknownConnection (uri : Uri)
  /-- A setting that is no positive number. -/
  | settings (key value : String)
  /-- A file that cannot be read as text. -/
  | io
  deriving DecidableEq

/-- The text an error is reported with. -/
def SessionError.message : SessionError → String
  | .negotiation cause => "Protocol error: " ++ cause.message
  | .agreement cause => "Agreement error: " ++ cause.message
  | .transport cause => "Transport error: " ++ cause.message
  | .unknownConnection uri => "Unknown connection: " ++ uri.text
  | .settings key value =>
    "Configuration error: " ++ key ++ " must be a positive integer, got " ++ Text.Quoted.quote value
  | .io => "IO error"

end Parley
