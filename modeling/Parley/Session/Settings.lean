/-
The configuration of a client, from named variables with defaults. A bound has to be a positive
decimal number; a plus sign before it and blanks around it are allowed.
-/
import Parley.Agreement.Reconcile
import Parley.Loading.Tracker
import Parley.Session.Error
import Parley.Text.Blank
import Parley.Text.Percent

namespace Parley

/-- The configuration of a client. -/
structure Settings where
  /-- The base of the identifiers of new events. -/
  nodeUri : String
  /-- The base of the owner's application, which computes agreement data. -/
  ownerUrl : String
  /-- The greatest number of copies looked at per agreement event. -/
  maxDepth : Nat
  /-- The number of failures in a row after which a data set is not fetched again. -/
  maxFailures : Nat
  deriving DecidableEq

namespace Settings

/-- The configuration when no variable is given. -/
def default : Settings where
  nodeUri := "https://localhost:8443/won/resource"
  ownerUrl := "https://localhost:8082/owner"
  maxDepth := defaultMaxDepth
  maxFailures := Loading.Tracker.defaultMaxFailures

/-- Reads a positive number below a bound. -/
def positive? (bound : Nat) (value : String) : Option Nat :=
  let digits := match Text.trimChars value.toList with
    | '+' :: r => r
    | r => r
  match Text.decimal? digits with
  | some n => if 0 < n ∧ n < bound then some n else none
  | none => none

/-- A numeric setting, or its default if it is not given. -/
def numberSetting (given : String → Option String) (key : String) (bound d : Nat) :
    Except SessionError Nat :=
  match given key with
  | none => .ok d
  | some value =>
    match positive? bound value with
    | some n => .ok n
    | none => .error (.settings key value)

/-- The configuration that named variables give. -/
def ofVariables (given : String → Option String) : Except SessionError Settings := do
  let depth ← numberSetting given "WON_AGREEMENT_MAX_DEPTH" (Nat.pow 2 64) default.maxDepth
  let failures ←
    numberSetting given "WON_SUB_RESOURCE_MAX_FAILURES" (Nat.pow 2 32) default.maxFailures
  return {
    nodeUri := (given "WON_NODE_URI").getD default.nodeUri
    ownerUrl := (given "WON_OWNER_BASE_URL").getD default.ownerUrl
    maxDepth := depth
    maxFailures := failures }

/-- The address of the question for the agreement data of a connection. -/
def agreementUrl (c : Settings) (connection : Uri) : String :=
  String.ofList (c.ownerUrl.toList.reverse.dropWhile (· == '/')).reverse ++
    "/rest/agreement/getAgreementProtocolUris?connectionUri=" ++ Text.Percent.encode connection.text

end Settings

end Parley
