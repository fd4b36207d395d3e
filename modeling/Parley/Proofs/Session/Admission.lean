/-
A message is admitted to its connection when it first takes effect. Unless the node's data change
it, the lifecycle of a connection moves only by the admitted messages; unless the connection is
reconciled, it is flagged only by those that refer to others. And a connection keeps its messages.
-/
import Parley.Proofs.Session.Moves

namespace Parley

/-! ## Admitted messages -/

/-- The messages of which an event addressed to a connection brings the effect. -/
def Connection.admitted (c : Option Connection) : Event → List Message
  | .messagesLoaded _ page => effective c (Message.chronological page.messages)
  | .messageReceived _ m => effective c [m]
  | .sendSucceeded _ event _ => (c.bind (·.store.get? event)).toList
  | _ => []

/-- The messages that a move admits to a connection. -/
def Move.admitted (u : Uri) (c : Option Connection) : Move → List Message
  | .event e => if e.addressee? = some u then Connection.admitted c e else []
  | .track _ => []

/-- The messages that moves admit to a connection, in the order in which they take effect. -/
def Session.admitted (u : Uri) : Session → List Move → List Message
  | _, [] => []
  | s, m :: ms => m.admitted u (s.connections.get? u) ++ (s.move m).admitted u ms

/-! ## Kept messages -/

/-- The messages of a store are still there, apart from what was filled in. -/
def Store.Keeps (s t : Store) : Prop :=
  ∀ u m, s.get? u = some m → ∃ m', t.get? u = some m' ∧ m'.unannotated = m.unannotated

namespace Store

theorem Keeps.refl (s : Store) : s.Keeps s :=
  fun _ m h => ⟨m, h, rfl⟩

theorem Keeps.trans {s t r : Store} (h : s.Keeps t) (h' : t.Keeps r) : s.Keeps r := by
  intro u m hm
  obtain ⟨m', hm', e⟩ := h u m hm
  obtain ⟨m'', hm'', e'⟩ := h' u m' hm'
  exact ⟨m'', hm'', e'.trans e⟩

theorem keeps_insert (s : Store) (m : Message) : s.Keeps (s.insert m).2 := by
  intro u stored h
  rw [get?_insert, h]
  by_cases e : u = m.uri
  · exact ⟨_, if_pos e, rfl⟩
  · exact ⟨stored, if_neg e, rfl⟩

theorem keeps_insertAll (s : Store) (ms : List Message) : s.Keeps (s.insertAll ms) := by
  induction ms generalizing s with
  | nil => exact .refl s
  | cons m ms ih => exact (s.keeps_insert m).trans (ih _)

theorem keeps_edit (s : Store) (u : Uri) {f : Message → Message}
    (hf : ∀ m : Message, (f m).unannotated = m.unannotated) : s.Keeps (s.edit u f).2 := by
  intro v stored h
  rw [get?_edit, h]
  by_cases e : v = u
  · exact ⟨f stored, if_pos e, hf stored⟩
  · exact ⟨stored, if_neg e, rfl⟩

end Store

/-! ## What admitted messages do -/

namespace Connection

/-- A connection after messages were admitted, and maybe others filled in. -/
structure Follows (c : Option Connection) (ms : List Message) (d : Connection) : Prop where
  lifecycle : d.lifecycle = ms.foldl Lifecycle.absorb (c.getD blank).lifecycle
  agreementStale : d.agreementStale = ((c.getD blank).agreementStale || ms.any (·.hasEffects))
  keeps : (c.getD blank).store.Keeps d.store

theorem follows_store (c : Connection) {t : Store} (h : c.store.Keeps t) :
    Follows (some c) [] { c with store := t } :=
  ⟨rfl, (Bool.or_false _).symm, h⟩

theorem follows_deliver {ms : List Message} {c : Option Connection} {d : Connection}
    (h : ms.foldl hear c = some d) : Follows c (effective c ms) d := by
  refine ⟨(deliver h).1, (deliver h).2, fun u m hm => ?_⟩
  have hd := get?_deliver h u
  rw [hm, Option.some_or, Option.map_some] at hd
  exact Option.map_eq_some_iff.1 hd

theorem follows_acknowledge (c : Connection) (event : Uri) (remote : Option Uri) :
    Follows (some c) (c.store.get? event).toList (c.acknowledge event remote) := by
  unfold acknowledge
  cases c.store.get? event with
  | none => exact follows_store c (.refl _)
  | some m =>
    exact ⟨rfl, by simp, c.store.keeps_edit event fun _ => rfl⟩

/-- Every event but a reconciliation leaves a connection that follows from the admitted messages. -/
theorem follows_after {u : Uri} {c : Option Connection} {e : Event} {d : Connection}
    (h : after c e = some d) (hu : e.addressee? = some u)
    (he : (Move.event e).reconciles u = false) : Follows c (admitted c e) d := by
  cases e with
  | messagesLoaded v page => exact follows_deliver h
  | messageReceived v m =>
    have h' : [m].foldl hear c = some d := h
    exact follows_deliver h'
  | messageSent v m =>
    obtain ⟨b, rfl, rfl⟩ := Option.map_eq_some_iff.1 h
    exact follows_store b (b.store.keeps_insert m)
  | sendSucceeded v event remote =>
    obtain ⟨b, rfl, rfl⟩ := Option.map_eq_some_iff.1 h
    exact follows_acknowledge b event remote
  | sendFailed v event =>
    obtain ⟨b, rfl, rfl⟩ := Option.map_eq_some_iff.1 h
    exact follows_store b (b.store.keeps_edit event fun _ => rfl)
  | agreementReconciled v view fetched =>
    cases hu
    simp [Move.reconciles] at he
  | _ => cases hu

end Connection

namespace Move

open Connection

/-- What holds of a connection that is known after a move. -/
structure Outcome (u : Uri) (m : Move) (c : Option Connection) (d : Connection) : Prop where
  lifecycle : (m.describes u = true → some d = c) →
    d.lifecycle = (m.admitted u c).foldl Lifecycle.absorb (c.getD blank).lifecycle
  agreementStale : m.reconciles u = false →
    d.agreementStale = ((c.getD blank).agreementStale || (m.admitted u c).any (·.hasEffects))
  keeps : (c.getD blank).store.Keeps d.store

variable {u : Uri} {m : Move} {c : Option Connection} {d : Connection}

theorem admitted_of_other (h : m.addressee? ≠ some u) : m.admitted u c = [] := by
  cases m with
  | event e => exact if_neg h
  | track f => rfl

theorem admitted_of_addressee {e : Event} (h : e.addressee? = some u) :
    (Move.event e).admitted u c = Connection.admitted c e :=
  if_pos h

theorem outcome_of_follows (h : Follows c (m.admitted u c) d) : m.Outcome u c d :=
  ⟨fun _ => h.lifecycle, fun _ => h.agreementStale, h.keeps⟩

theorem outcome_of_reconciled (u : Uri) (b : Connection) (view : AgreementView)
    (fetched : List Message) :
    (Move.event (.agreementReconciled u view fetched)).Outcome u (some b)
      { b with
        store := b.store.insertAll fetched
        agreement := some view
        agreementStale := false } := by
  refine ⟨fun _ => ?_, fun h => ?_, b.store.keeps_insertAll fetched⟩
  · rw [admitted_of_addressee rfl]
    rfl
  · simp [reconciles] at h

theorem Effect.outcome (h : m.Effect u c (some d)) : m.Outcome u c d := by
  generalize hd : some d = c' at h
  cases h with
  | @addressed e _ he =>
    cases hr : (Move.event e).reconciles u with
    | false =>
      refine outcome_of_follows ?_
      rw [admitted_of_addressee he]
      exact follows_after hd.symm he hr
    | true =>
      -- a reconciliation lowers the flag, so it does not follow from what is admitted
      cases e with
      | agreementReconciled v view fetched =>
        cases he
        obtain ⟨b, rfl, rfl⟩ := Option.map_eq_some_iff.1 hd.symm
        exact outcome_of_reconciled u b view fetched
      | _ => cases hr
  | kept he =>
    subst hd
    refine outcome_of_follows ?_
    rw [admitted_of_other he]
    exact follows_store d (.refl _)
  | removed => cases hd
  | placed he hdescribes hplaced =>
    refine ⟨fun hsame => ?_, fun _ => ?_, ?_⟩
    · rw [admitted_of_other he, ← hsame hdescribes]
      rfl
    · rw [admitted_of_other he]
      cases hplaced <;> cases hd <;> exact (Bool.or_false _).symm
    · cases hplaced <;> cases hd <;> exact .refl _

end Move

end Parley
