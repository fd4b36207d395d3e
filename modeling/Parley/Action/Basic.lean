/-
The six negotiation actions, each of which sends a message that refers to another one, and the four
ways a message is shown.
-/
import Parley.Message.References

namespace Parley

/-- A negotiation action on an existing message. -/
inductive Action where
  | propose
  | claim
  | accept
  | reject
  | retract
  | proposeToCancel
  deriving DecidableEq, Inhabited

namespace Action

/-- Every action, in the order they are offered. -/
def all : List Action :=
  [.propose, .claim, .accept, .reject, .retract, .proposeToCancel]

/-- The name of an action. -/
def name : Action → String
  | .propose => "propose"
  | .claim => "claim"
  | .accept => "accept"
  | .reject => "reject"
  | .retract => "retract"
  | .proposeToCancel => "proposeToCancel"

/-- The kind of the reference that the message of an action carries. -/
def reference : Action → ReferenceKind
  | .propose => .proposes
  | .claim => .claims
  | .accept => .accepts
  | .reject => .rejects
  | .retract => .retracts
  | .proposeToCancel => .proposesToCancel

@[simp] theorem mem_all (a : Action) : a ∈ all := by
  cases a <;> decide

end Action

/-- How a message is shown. -/
inductive Classification where
  /-- An open claim. -/
  | claim
  /-- An open proposal, or an open proposal to cancel. -/
  | proposal
  /-- An accepted proposal or claim that is in force. -/
  | agreement
  | plain
  deriving DecidableEq, Inhabited

/-- The name of a classification. -/
def Classification.name : Classification → String
  | .claim => "claim"
  | .proposal => "proposal"
  | .agreement => "agreement"
  | .plain => "plain"

end Parley
