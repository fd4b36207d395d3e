/-
Calls share the state and change it in atomic steps, each of which folds in one event or changes the
load records. What such a move makes of one connection depends only on the connection: an event
addressed to it does what the event says, and any other move leaves it as it is, removes it, or
takes over the state that the node has for it.
-/
import Parley.Proofs.Session.Delivery

namespace Parley

open Loading

/-! ## Moves -/

/-- What a call does to the shared state in one atomic step. -/
inductive Move where
  | event (e : Event)
  | track (f : Tracker → Tracker)

/-- The connection whose data an event is about. -/
def Event.addressee? : Event → Option Uri
  | .messagesLoaded u _ | .messageReceived u _ | .messageSent u _ | .sendSucceeded u _ _
  | .sendFailed u _ | .agreementReconciled u _ _ => some u
  | _ => none

/-- Whether an event carries the node's data of a connection. -/
def Event.describes (u : Uri) : Event → Bool
  | .connectionLoaded data => data.uri = u
  | .containerLoaded _ data => data.any (·.uri = u)
  | _ => false

/-- The event reports on the agreement data of a connection. -/
def Event.reportsAgreements : Event → Bool
  | .agreementReconciled .. | .agreementFailed _ => true
  | _ => false

namespace Move

def addressee? : Move → Option Uri
  | .event e => e.addressee?
  | .track _ => none

def describes (u : Uri) : Move → Bool
  | .event e => e.describes u
  | .track _ => false

/-- Whether the move takes in the outcome of reconciling a connection. -/
def reconciles (u : Uri) : Move → Bool
  | .event (.agreementReconciled v _ _) => v = u
  | _ => false

end Move

namespace Session

def move (s : Session) : Move → Session
  | .event e => s.apply e
  | .track f => { s with tracker := f s.tracker }

def moves (s : Session) (ms : List Move) : Session :=
  ms.foldl move s

@[simp] theorem moves_nil (s : Session) : s.moves [] = s := rfl

@[simp] theorem moves_cons (s : Session) (m : Move) (ms : List Move) :
    s.moves (m :: ms) = (s.move m).moves ms := rfl

theorem moves_append (s : Session) (ms ms' : List Move) :
    s.moves (ms ++ ms') = (s.moves ms).moves ms' :=
  List.foldl_append

/-- Each of the moves passes a test in the state that it meets. -/
def Throughout (p : Session → Move → Prop) : Session → List Move → Prop
  | _, [] => True
  | s, m :: ms => p s m ∧ (s.move m).Throughout p ms

theorem throughout_of_forall {p : Session → Move → Prop} {ms : List Move}
    (h : ∀ m ∈ ms, ∀ s, p s m) (s : Session) : s.Throughout p ms := by
  induction ms generalizing s with
  | nil => trivial
  | cons m ms ih =>
    obtain ⟨hm, hms⟩ := List.forall_mem_cons.1 h
    exact ⟨hm s, ih hms (s.move m)⟩

end Session

/-! ## What a move makes of a connection -/

namespace Connection

/-- A connection after an event addressed to it. -/
def after (c : Option Connection) : Event → Option Connection
  | .messagesLoaded _ page => (Message.chronological page.messages).foldl hear c
  | .messageReceived _ m => hear c m
  | .messageSent _ m => c.map fun c => { c with store := (c.store.insert m).2 }
  | .sendSucceeded _ event remote => c.map (·.acknowledge event remote)
  | .sendFailed _ event => c.map fun c => { c with store := (c.store.recordFailure event).2 }
  | .agreementReconciled _ view fetched =>
    c.map fun c =>
      { c with
        store := c.store.insertAll fetched
        agreement := some view
        agreementStale := false }
  | _ => c

/-- The node's data of a connection make a new one, or set the lifecycle of a known one. -/
inductive Placed : Option Connection → Option Connection → Prop
  | kept (c : Option Connection) : Placed c c
  | moved (c : Connection) (l : Lifecycle) : Placed (some c) (some { c with lifecycle := l })
  | made (atom socket targetSocket : Uri) (l : Lifecycle) :
      Placed none (some (.fresh atom socket targetSocket l))

theorem Placed.trans {c d e : Option Connection} (h : Placed c d) (h' : Placed d e) :
    Placed c e := by
  cases h with
  | kept => exact h'
  | moved c l =>
    cases h' with
    | kept => exact .moved c l
    | moved _ l' => exact .moved c l'
  | made a so t l =>
    cases h' with
    | kept => exact .made a so t l
    | moved _ l' => exact .made a so t l'

end Connection

/-- What a move may make of a connection. -/
inductive Move.Effect (u : Uri) : Move → Option Connection → Option Connection → Prop
  | addressed {e : Event} {c : Option Connection} :
      e.addressee? = some u → Effect u (.event e) c (Connection.after c e)
  | kept {m : Move} {c : Option Connection} : m.addressee? ≠ some u → Effect u m c c
  | removed {m : Move} {c : Option Connection} : m.addressee? ≠ some u → Effect u m c none
  | placed {m : Move} {c d : Option Connection} :
      m.addressee? ≠ some u → m.describes u = true → Connection.Placed c d → Effect u m c d

namespace Session

/-- The connections stay as they are or go. -/
def Loses (s t : Session) : Prop :=
  ∀ u, t.connections.get? u = s.connections.get? u ∨ t.connections.get? u = none

theorem Loses.refl (s : Session) : s.Loses s :=
  fun _ => Or.inl rfl

theorem Loses.trans {s t r : Session} (h : s.Loses t) (h' : t.Loses r) : s.Loses r := by
  intro u
  rcases h' u with e | e
  · rw [e]
    exact h u
  · exact Or.inr e

theorem loses_forgetAtom (s : Session) (atom : Uri) : s.Loses (s.forgetAtom atom) := by
  intro u
  unfold forgetAtom
  rw [UriMap.get?_filter]
  cases s.connections.get? u with
  | none => exact Or.inl rfl
  | some c => by_cases h : c.atom = atom <;> simp [h]

theorem loses_forget (s : Session) (kind : ResourceKind) (u : Uri) : s.Loses (s.forget kind u) := by
  cases kind with
  | atom | container => exact s.loses_forgetAtom u
  | connection =>
    intro v
    unfold forget
    by_cases e : v = u <;> simp [e]
  | external => exact .refl s

theorem loses_takeFailure (s : Session) (kind : ResourceKind) (u : Uri) (e : NodeFailure) :
    s.Loses (s.takeFailure kind u e) := by
  -- a deleted resource may take others with it
  have hall (removed : List (ResourceKind × Uri)) (t : Session) :
      t.Loses (removed.foldl (fun s r => s.forget r.1 r.2) t) := by
    induction removed generalizing t with
    | nil => exact .refl t
    | cons r rs ih => exact (t.loses_forget r.1 r.2).trans (ih _)
  unfold takeFailure
  split
  · rename_i t _
    exact (loses_forget { s with tracker := t } kind u).trans (hall _ _)
  · exact .refl s

theorem loses_takeAtom (s : Session) (data : AtomDocument) : s.Loses (s.takeAtom data) := by
  unfold takeAtom
  split
  · exact .refl s
  · split
    · exact loses_forgetAtom { s with tracker := _ } data.uri
    · exact .refl s

/-- The node's data of a connection reach no other. -/
theorem placed_mergeConnection (s : Session) (data : ConnectionDocument) (u : Uri) :
    Connection.Placed (s.connections.get? u) ((s.mergeConnection data).connections.get? u) ∧
      (data.uri ≠ u → (s.mergeConnection data).connections.get? u = s.connections.get? u) := by
  have hother {c : Connection} (h : data.uri ≠ u) :
      (s.connections.insert data.uri c).get? u = s.connections.get? u := by
    simp [Ne.symm h]
  unfold mergeConnection
  split
  · exact ⟨.kept _, fun _ => rfl⟩
  · rename_i atom _
    split
    · rename_i c hc
      split
      · exact ⟨.kept _, fun _ => rfl⟩
      · refine ⟨?_, hother⟩
        by_cases e : u = data.uri
        · subst e
          simpa [hc] using Connection.Placed.moved c (.resume data.state)
        · simpa [e] using Connection.Placed.kept (s.connections.get? u)
    · rename_i hc
      refine ⟨?_, hother⟩
      by_cases e : u = data.uri
      · subst e
        simpa [hc] using Connection.Placed.made atom data.socket data.targetSocket _
      · simpa [e] using Connection.Placed.kept (s.connections.get? u)

theorem placed_takeContainer (s : Session) (atom : Uri) (data : List ConnectionDocument) (u : Uri) :
    Connection.Placed (s.connections.get? u)
        ((s.takeContainer atom data).connections.get? u) ∧
      ((data.any (·.uri = u)) = false →
        (s.takeContainer atom data).connections.get? u = s.connections.get? u) := by
  have hlisted (ds : List ConnectionDocument) (t : Session) :
      Connection.Placed (t.connections.get? u)
          ((ds.foldl (addListed atom) t).connections.get? u) ∧
        ((ds.any (·.uri = u)) = false →
          (ds.foldl (addListed atom) t).connections.get? u = t.connections.get? u) := by
    induction ds generalizing t with
    | nil => exact ⟨.kept _, fun _ => rfl⟩
    | cons d ds ih =>
      obtain ⟨hd, hne⟩ := t.placed_mergeConnection d u
      obtain ⟨hds, hrest⟩ := ih (addListed atom t d)
      refine ⟨hd.trans hds, fun h => ?_⟩
      rw [List.any_cons, Bool.or_eq_false_iff] at h
      exact (hrest h.2).trans (hne (by simpa using h.1))
  unfold takeContainer
  split
  · exact ⟨.kept _, fun _ => rfl⟩
  · rename_i t _
    exact hlisted data { s with tracker := t }

theorem placed_takeConnection (s : Session) (data : ConnectionDocument) (u : Uri) :
    Connection.Placed (s.connections.get? u) ((s.takeConnection data).connections.get? u) ∧
      (data.uri ≠ u → (s.takeConnection data).connections.get? u = s.connections.get? u) := by
  unfold takeConnection
  split
  · exact ⟨.kept _, fun _ => rfl⟩
  · rename_i t _
    cases data.owner? with
    | none => exact placed_mergeConnection { s with tracker := t } data u
    | some atom =>
      exact placed_mergeConnection { s with tracker := t.assignOwner data.uri atom } data u

/-- An event addressed to a connection does to it what the event says, and nothing to the others. -/
theorem get?_apply_of_addressee (s : Session) {e : Event} {u : Uri} (h : e.addressee? = some u)
    (v : Uri) :
    (s.apply e).connections.get? v =
      if v = u then Connection.after (s.connections.get? u) e else s.connections.get? v := by
  cases e <;> cases h
  case messagesLoaded page => exact get?_takeMessages _ _ u v
  case messageReceived m => exact get?_takeMessage _ u v m
  case sendSucceeded event remote => exact get?_takeAcknowledgement _ u v event remote
  case messageSent m | sendFailed event =>
    by_cases e : v = u <;>
      simp [apply, effect, updateConnection, Connection.after, e]
  case agreementReconciled view fetched =>
    by_cases e : v = u <;>
      simp [apply, effect, updateConnection, Connection.after, e]

/-- What a move makes of a connection. -/
theorem effect_move (s : Session) (m : Move) (u : Uri) :
    m.Effect u (s.connections.get? u) ((s.move m).connections.get? u) := by
  have hlost {t : Session} {m : Move} (hm : m.addressee? ≠ some u) (h : s.Loses t) :
      m.Effect u (s.connections.get? u) (t.connections.get? u) := by
    rcases h u with e | e
    · rw [e]
      exact .kept hm
    · rw [e]
      exact .removed hm
  cases m with
  | track f => exact .kept nofun
  | event e =>
    cases ha : e.addressee? with
    | some v =>
      show Move.Effect u _ _ ((s.apply e).connections.get? u)
      rw [s.get?_apply_of_addressee ha]
      by_cases h : u = v
      · subst h
        rw [if_pos rfl]
        exact .addressed ha
      · rw [if_neg h]
        exact .kept fun hu => h (Option.some.inj (hu.symm.trans ha))
    | none =>
      -- such an event loses connections, or it carries the node's data of some
      have hm : (Move.event e).addressee? ≠ some u := by
        show e.addressee? ≠ some u
        rw [ha]
        nofun
      have hplaced {t : Session}
          (h : Connection.Placed (s.connections.get? u) (t.connections.get? u) ∧
            (e.describes u = false → t.connections.get? u = s.connections.get? u)) :
          (Move.event e).Effect u (s.connections.get? u) (t.connections.get? u) := by
        cases hd : e.describes u with
        | true => exact .placed hm hd h.1
        | false =>
          rw [h.2 hd]
          exact .kept hm
      let t : Session := { s with version := s.version + 1 }
      cases e with
      | atomLoaded data => exact hlost hm (t.loses_takeAtom data)
      | atomLoadFailed v e => exact hlost hm (t.loses_takeFailure .atom v e)
      | containerLoadFailed v e => exact hlost hm (t.loses_takeFailure .container v e)
      | connectionLoadFailed v e => exact hlost hm (t.loses_takeFailure .connection v e)
      | atomDeleted v =>
        exact hlost hm (loses_forgetAtom { t with tracker := (t.tracker.forgetAtom v).2 } v)
      | containerLoaded atom data => exact hplaced (t.placed_takeContainer atom data u)
      | connectionLoaded data =>
        have h := t.placed_takeConnection data u
        exact hplaced ⟨h.1, fun hd => h.2 (by simpa [Event.describes] using hd)⟩
      | loggedOut => exact .removed hm
      | atomDeactivated | atomActivated | messagesLoadFailed | agreementFailed => exact .kept hm
      | messagesLoaded | messageReceived | messageSent | sendSucceeded | sendFailed
        | agreementReconciled => cases ha

end Session

end Parley
