/-
Any number of calls over one shared state. A turn lets one call take its next step: it gets the
stamp of its new event, or it reads and changes the state in one atomic step, or it asks the node
and gets an answer. Between two steps of a call the others may take any number of theirs. For each
call the pool keeps the states that the call met in its atomic steps and the questions that it
asked.
-/
import Parley.Proofs.Session.Run

namespace Parley

/-! ## Calls under way -/

/-- A call under way. -/
structure Progress (α : Type) where
  /-- The stamp of the new event, if the call makes one. -/
  stamp : Stamp
  /-- What is left of the call. -/
  rest : Program α
  /-- The states that it met in its atomic steps, in order. -/
  met : List Session
  /-- The questions that it asked, in order. -/
  asked : List Request

/-- The next step of a call, with the node that answers if it asks. -/
def Progress.step {α : Type} (p : Progress α) (node : Node) (s : Session) : Progress α × Session :=
  match p.rest with
  | .done _ => (p, s)
  | .stamp next => ({ p with rest := next p.stamp }, s)
  | .atomic update next => ({ p with rest := next s, met := p.met ++ [s] }, update s)
  | .ask r next => ({ p with rest := next (node r), asked := p.asked ++ [r] }, s)

namespace Progress

variable {α : Type} (p : Progress α)

theorem step_of_done {a : α} (h : p.rest = .done a) (node : Node) (s : Session) :
    p.step node s = (p, s) := by
  unfold step
  rw [h]

theorem step_of_atomic {update : Session → Session} {next : Session → Program α}
    (h : p.rest = .atomic update next) (node : Node) (s : Session) :
    p.step node s = ({ p with rest := next s, met := p.met ++ [s] }, update s) := by
  unfold step
  rw [h]

theorem step_of_ask {r : Request} {next : Except NodeFailure r.Answer → Program α}
    (h : p.rest = .ask r next) (node : Node) (s : Session) :
    p.step node s = ({ p with rest := next (node r), asked := p.asked ++ [r] }, s) := by
  unfold step
  rw [h]

end Progress

/-- The answer of a call that is over. -/
def Progress.result? {α : Type} (p : Progress α) : Option α :=
  match p.rest with
  | .done a => some a
  | _ => none

/-- One step of one call. -/
structure Turn (ι : Type) where
  call : ι
  node : Node

/-- Calls under way over one state. -/
structure Pool (ι α : Type) where
  session : Session
  calls : ι → Progress α

namespace Pool

variable {ι α : Type}

/-- The calls before their first step. -/
def start (s : Session) (stamps : ι → Stamp) (calls : ι → Program α) : Pool ι α :=
  ⟨s, fun i => ⟨stamps i, calls i, [], []⟩⟩

variable [DecidableEq ι]

def turn (p : Pool ι α) (t : Turn ι) : Pool ι α where
  session := ((p.calls t.call).step t.node p.session).2
  calls i := if i = t.call then ((p.calls i).step t.node p.session).1 else p.calls i

def run (p : Pool ι α) (ts : List (Turn ι)) : Pool ι α :=
  ts.foldl turn p

theorem run_cons (p : Pool ι α) (t : Turn ι) (ts : List (Turn ι)) :
    p.run (t :: ts) = (p.turn t).run ts := rfl

theorem run_append (p : Pool ι α) (ts ts' : List (Turn ι)) :
    p.run (ts ++ ts') = (p.run ts).run ts' :=
  List.foldl_append

theorem calls_turn_self (p : Pool ι α) (t : Turn ι) :
    (p.turn t).calls t.call = ((p.calls t.call).step t.node p.session).1 :=
  if_pos rfl

theorem calls_turn_of_ne (p : Pool ι α) {t : Turn ι} {i : ι} (h : i ≠ t.call) :
    (p.turn t).calls i = p.calls i :=
  if_neg h

/-- A call forgets no state that it met. -/
theorem met_prefix_turn (p : Pool ι α) (t : Turn ι) (i : ι) :
    (p.calls i).met <+: ((p.turn t).calls i).met := by
  by_cases h : i = t.call
  · subst h
    rw [calls_turn_self]
    unfold Progress.step
    cases (p.calls t.call).rest with
    | atomic update next => exact List.prefix_append _ _
    | done a | stamp next | ask r next => exact List.prefix_refl _
  · have hkept := p.calls_turn_of_ne h
    exact ⟨[], by rw [hkept, List.append_nil]⟩

theorem met_prefix_run (p : Pool ι α) (ts : List (Turn ι)) (i : ι) :
    (p.calls i).met <+: ((p.run ts).calls i).met := by
  induction ts generalizing p with
  | nil => exact List.prefix_refl _
  | cons t ts ih => exact (p.met_prefix_turn t i).trans (ih _)

/-- The first state that a call met stays the first one. -/
theorem head?_met_run {p : Pool ι α} {i : ι} {s : Session} (h : (p.calls i).met.head? = some s)
    (ts : List (Turn ι)) : ((p.run ts).calls i).met.head? = some s := by
  obtain ⟨more, e⟩ := p.met_prefix_run ts i
  rw [← e, List.head?_append, h, Option.some_or]

end Pool

end Parley
