/-
The lifecycle of one connection: its state and the number of transitions it has made. Illegal events
are refused and leave the lifecycle as it is. Main statements: what absorbing a message does, by the
event it stands for.
-/
import Parley.Error

namespace Parley

/-- Whether a message of the kind may be sent in the state: a connect to ask, an open to accept, a
close unless closed already, and chat and feedback while connected. -/
def ConnectionState.permits (state : ConnectionState) : MessageKind → Bool
  | .connect => state = .suggested || state = .closed
  | .opening => state = .requestReceived
  | .close => state ≠ .closed
  | .chat _ => state = .connected
  | .feedback => state = .connected
  | .atomHint => false
  | .socketHint => false
  | .changeNotification => false
  | .response _ => false

/-- The lifecycle of one connection. -/
structure Lifecycle where
  state : ConnectionState
  /-- The number of legal events so far. -/
  transitions : Nat
  deriving DecidableEq

namespace Lifecycle

/-- A lifecycle resumed in a known state. -/
def resume (state : ConnectionState) : Lifecycle := ⟨state, 0⟩

/-- A connection suggested by a matcher. -/
def start : Lifecycle := resume .suggested

/-- A connection that its first connect message created. -/
def ofFirstConnect : Direction → Lifecycle
  | .outgoing => resume .requestSent
  | .incoming => resume .requestReceived

/-- Whether messages can be exchanged. -/
def isConnected (l : Lifecycle) : Bool :=
  l.state = .connected

/-- The lifecycle after an event; an illegal event is refused. -/
def step (l : Lifecycle) (event : LifecycleEvent) : Except NegotiationError Lifecycle :=
  match l.state.next? event with
  | some next => .ok ⟨next, l.transitions + 1⟩
  | none => .error (.invalidTransition event l.state)

/-- The lifecycle after the event of a message, if the message stands for one. The answer says
whether it did. -/
def hear (l : Lifecycle) (m : Message) : Except NegotiationError (Lifecycle × Bool) :=
  match LifecycleEvent.ofMessage? m with
  | none => .ok (l, false)
  | some event =>
    match l.step event with
    | .ok l => .ok (l, true)
    | .error e => .error e

/-- The lifecycle after a message, where an illegal event is ignored. -/
def absorb (l : Lifecycle) (m : Message) : Lifecycle :=
  match l.hear m with
  | .ok (l, _) => l
  | .error _ => l

/-- The lifecycle after a history of messages, in the order given. -/
def ofHistory (ms : List Message) : Lifecycle :=
  ms.foldl absorb start

/-- Refuses a message whose kind may not be sent now. -/
def checkSend (l : Lifecycle) (kind : MessageKind) : Except NegotiationError Unit :=
  if l.state.permits kind then .ok () else .error (.sendNotAllowed kind l.state)

/-! ## What a message does -/

/-- A message that stands for no event changes nothing. -/
theorem absorb_of_no_event {l : Lifecycle} {m : Message} (h : LifecycleEvent.ofMessage? m = none) :
    l.absorb m = l := by
  simp [absorb, hear, h]

/-- A legal event moves the state and counts once; an illegal one changes nothing. -/
theorem absorb_of_event {l : Lifecycle} {m : Message} {e : LifecycleEvent}
    (h : LifecycleEvent.ofMessage? m = some e) :
    l.absorb m = match l.state.next? e with
      | some s => ⟨s, l.transitions + 1⟩
      | none => l := by
  simp only [absorb, hear, step, h]
  cases l.state.next? e <;> simp

/-- A change that keeps the events makes no difference to a history. -/
theorem ofHistory_map (f : Message → Message)
    (hf : ∀ m, LifecycleEvent.ofMessage? (f m) = LifecycleEvent.ofMessage? m) (ms : List Message) :
    ofHistory (ms.map f) = ofHistory ms := by
  have habsorb (l : Lifecycle) (m : Message) : l.absorb (f m) = l.absorb m := by
    unfold absorb hear
    rw [hf]
  unfold ofHistory
  rw [List.foldl_map]
  simp only [habsorb]

end Lifecycle

end Parley
