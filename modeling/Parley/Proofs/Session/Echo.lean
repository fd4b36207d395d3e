/-
A send may fail for the sender although the node took the message in: the answer was lost, and the
node sends the message back like any other of the connection. That echo is then the only report that
the message was delivered. But the own copy was stored before the send, so the echo is a further
copy of a known message, and a further copy takes no effect. Main statement: which of the effects of
a delivered message are lost that way, one by one. An acknowledged send loses none.
-/
import Parley.Proofs.Session.Moves
import Parley.Proofs.Session.Novelty
import Parley.Proofs.Store.Operations

namespace Parley

open Loading

/-! ## Definitions -/

/-- A message as its own node sends it back: acknowledged, and maybe with the remote name. -/
def Message.echo (m : Message) (remote : Option Uri) : Message :=
  { m with
    remoteUri := remote.or m.remoteUri
    delivery := { m.delivery with receivedByOwn := true } }

namespace Event

/-- A send of which the sender is told that it failed. -/
def failedSend (u : Uri) (m : Message) : List Event :=
  [.messageSent u m, .sendFailed u m.uri]

/-- A send that the node acknowledges. -/
def acknowledgedSend (u : Uri) (m : Message) (remote : Option Uri) : List Event :=
  [.messageSent u m, .sendSucceeded u m.uri remote]

/-- The message comes back from the own node. -/
def delivery (u : Uri) (m : Message) (remote : Option Uri) : List Event :=
  [.messageReceived u (m.echo remote)]

end Event

namespace Session

def applyAll (s : Session) (es : List Event) : Session :=
  es.foldl apply s

theorem applyAll_append (s : Session) (es es' : List Event) :
    s.applyAll (es ++ es') = (s.applyAll es).applyAll es' :=
  List.foldl_append

/-- Whether the petri net data of a connection is recorded as outdated. -/
def petriNetDirty (s : Session) (u : Uri) : Bool :=
  (s.tracker.connections.get? u).any (·.petriNetData.dirty)

end Session

/-! ## Echoes -/

section

variable {m : Message} {remote : Option Uri}

@[simp] theorem Message.uri_echo : (m.echo remote).uri = m.uri := rfl

theorem ConnectionState.next?_ne_self (s : ConnectionState) (e : LifecycleEvent) :
    s.next? e ≠ some s := by
  cases s <;> cases e <;> decide

/-- A message leaves the state of a lifecycle exactly if it stands for no event that is legal. -/
theorem Lifecycle.state_absorb_eq_iff {l : Lifecycle} :
    (l.absorb m).state = l.state ↔
      ∀ e, LifecycleEvent.ofMessage? m = some e → l.state.next? e = none := by
  cases he : LifecycleEvent.ofMessage? m with
  | none => simp [absorb_of_no_event he]
  | some e =>
    rw [absorb_of_event he]
    simp only [Option.some.injEq, forall_eq']
    cases hn : l.state.next? e with
    | none => simp
    | some next =>
      have hne : next ≠ l.state := fun h => l.state.next?_ne_self e (h ▸ hn)
      simp [hne]

/-- The copy that is stored after a failed send and the echo is the echo exactly if the message did
not bear a failure from before and the echo does not rename it. -/
theorem Message.failed_merge_echo_iff :
    (m.revise .failed).merge (m.echo remote) = m.echo remote ↔
      m.delivery.failedToSend = false ∧
        ∀ r r', m.remoteUri = some r → remote = some r' → r = r' := by
  obtain ⟨uri, known, kind, direction, hasContent, systemMessage, senderSocket, targetSocket, date,
    unread, own, other, failed⟩ := m
  cases failed <;> cases known <;> cases remote <;>
    simp [revise, merge, echo, Delivery.merge, Delivery.acknowledged]

end

/-! ## What the events do -/

namespace Connection

variable {c : Connection} {m : Message} {remote : Option Uri}

/-- The first copy of a message takes effect, though it is an echo. -/
theorem take_echo_of_new (h : c.store.get? m.uri = none) :
    c.take (m.echo remote) = { c with
      store := c.store.add (m.echo remote)
      lifecycle := c.lifecycle.absorb m
      agreementStale := c.agreementStale || m.hasEffects } := by
  have hsame : (m.echo remote).unannotated = m.unannotated := rfl
  rw [take_of_new (m := m.echo remote) h, Lifecycle.absorb_congr hsame,
    Message.hasEffects_congr hsame]

end Connection

namespace Session

variable {s : Session} {u : Uri} {c : Connection} {m : Message} {remote : Option Uri}

theorem get?_applyAll_of_addressee {es : List Event} (h : ∀ e ∈ es, e.addressee? = some u) :
    (s.applyAll es).connections.get? u = es.foldl Connection.after (s.connections.get? u) := by
  induction es generalizing s with
  | nil => rfl
  | cons e es ih =>
    rw [List.forall_mem_cons] at h
    show ((s.apply e).applyAll es).connections.get? u = _
    rw [ih h.2, s.get?_apply_of_addressee h.1, if_pos rfl, List.foldl_cons]

theorem tracker_flagEffects (s : Session) (u : Uri) (m : Message) :
    (s.flagEffects u m).tracker =
      if m.hasEffects = true then s.tracker.invalidatePetriNet u else s.tracker := by
  unfold flagEffects
  split <;> rfl

theorem petriNetDirty_of_tracker_eq {t : Session} (h : t.tracker = s.tracker) (u : Uri) :
    t.petriNetDirty u = s.petriNetDirty u := by
  unfold petriNetDirty
  rw [h]

/-- A flagged connection has outdated petri net data, if it has a record. -/
theorem petriNetDirty_flagEffects (s : Session) (u : Uri) (m : Message) :
    (s.flagEffects u m).petriNetDirty u =
      if m.hasEffects = true then (s.tracker.connections.get? u).isSome
      else s.petriNetDirty u := by
  unfold petriNetDirty
  rw [tracker_flagEffects]
  split
  · unfold Tracker.invalidatePetriNet Tracker.setConnection Tracker.bump
    cases h : s.tracker.connections.get? u <;> simp [h]
  · rfl

/-- A new own message outdates the petri net data as its effects ask. -/
theorem petriNetDirty_takeMessage_of_new (hc : s.connections.get? u = some c)
    (hown : m.direction = .outgoing) (hnew : c.store.get? m.uri = none) :
    (s.takeMessage u m).petriNetDirty u =
      if m.hasEffects = true then (s.tracker.connections.get? u).isSome
      else s.petriNetDirty u := by
  rw [takeMessage_of_known hc, admitMessage_of_new hc hnew, petriNetDirty_flagEffects]
  simp [Tracker.notice, hown, petriNetDirty]

/-- A known own message is recorded nowhere. -/
theorem tracker_takeMessage_of_known {stored : Message} (hc : s.connections.get? u = some c)
    (hown : m.direction = .outgoing) (hknown : c.store.get? m.uri = some stored) :
    (s.takeMessage u m).tracker = s.tracker := by
  rw [takeMessage_of_known hc, admitMessage_of_known hc hknown]
  simp [Tracker.notice, hown]

/-! ## A delivered message -/

/-- What the echo of an unknown own message leaves. -/
theorem delivery_of_new (remote : Option Uri) (hc : s.connections.get? u = some c)
    (hown : m.direction = .outgoing) (hnew : c.store.get? m.uri = none) :
    (s.applyAll (Event.delivery u m remote)).connections.get? u =
        some { c with
          store := c.store.add (m.echo remote)
          lifecycle := c.lifecycle.absorb m
          agreementStale := c.agreementStale || m.hasEffects } ∧
      (s.applyAll (Event.delivery u m remote)).petriNetDirty u =
        if m.hasEffects = true then (s.tracker.connections.get? u).isSome
        else s.petriNetDirty u := by
  constructor
  · rw [get?_applyAll_of_addressee (by simp [Event.delivery, Event.addressee?]), hc]
    exact congrArg some (Connection.take_echo_of_new hnew)
  · exact petriNetDirty_takeMessage_of_new (s := { s with version := s.version + 1 })
      (m := m.echo remote) hc hown hnew

/-- The echo of a known own message only adds to what is known about it. -/
theorem delivery_of_known (remote : Option Uri) {stored : Message}
    (hc : s.connections.get? u = some c) (hown : m.direction = .outgoing)
    (hknown : c.store.get? m.uri = some stored) :
    (s.applyAll (Event.delivery u m remote)).connections.get? u =
        some { c with store := (c.store.insert (m.echo remote)).2 } ∧
      (s.applyAll (Event.delivery u m remote)).petriNetDirty u = s.petriNetDirty u := by
  constructor
  · rw [get?_applyAll_of_addressee (by simp [Event.delivery, Event.addressee?]), hc]
    exact congrArg some (Connection.take_of_known (m := m.echo remote) hknown)
  · exact petriNetDirty_of_tracker_eq (tracker_takeMessage_of_known
      (s := { s with version := s.version + 1 }) (m := m.echo remote) hc hown hknown) u

/-- What a failed send leaves: the own copy, marked as failed. -/
theorem failedSend_of_new (hc : s.connections.get? u = some c)
    (hnew : c.store.get? m.uri = none) :
    ∃ store, (s.applyAll (Event.failedSend u m)).connections.get? u =
        some { c with store := store } ∧
      store.get? m.uri = some (m.revise .failed) ∧
      (s.applyAll (Event.failedSend u m)).petriNetDirty u = s.petriNetDirty u := by
  refine ⟨((c.store.insert m).2.recordFailure m.uri).2, ?_, ?_, rfl⟩
  · rw [get?_applyAll_of_addressee (by simp [Event.failedSend, Event.addressee?]), hc]
    rfl
  · unfold Store.recordFailure
    rw [Store.get?_edit, if_pos rfl, Store.get?_insert, if_pos rfl, hnew]
    rfl

/-- What an acknowledged send leaves: the own copy, and its effects. -/
theorem acknowledgedSend_of_new (remote : Option Uri) (hc : s.connections.get? u = some c)
    (hnew : c.store.get? m.uri = none) :
    ∃ store, (s.applyAll (Event.acknowledgedSend u m remote)).connections.get? u =
        some { c with
          store := store
          lifecycle := c.lifecycle.absorb m
          agreementStale := c.agreementStale || m.hasEffects } ∧
      store.get? m.uri = some (m.revise (.acknowledged remote)) ∧
      (s.applyAll (Event.acknowledgedSend u m remote)).petriNetDirty u =
        if m.hasEffects = true then (s.tracker.connections.get? u).isSome
        else s.petriNetDirty u := by
  have hadded : (c.store.insert m).2.get? m.uri = some m := by
    rw [Store.get?_insert, if_pos rfl, hnew]
    rfl
  obtain ⟨store, m', hstore, hm', hsame⟩ := Store.acknowledge_of_known hadded remote
  have hrevised : store.get? m.uri = some (m.revise (.acknowledged remote)) := by
    have hedit := Store.get?_edit (c.store.insert m).2 m.uri m.uri (·.revise (.acknowledged remote))
    rw [if_pos rfl, hadded] at hedit
    rw [show store = ((c.store.insert m).2.acknowledge m.uri remote).2 by rw [hstore]]
    exact hedit
  refine ⟨store, ?_, hrevised, ?_⟩
  · rw [get?_applyAll_of_addressee (by simp [Event.acknowledgedSend, Event.addressee?]), hc]
    simp [Event.acknowledgedSend, Connection.after, Connection.acknowledge, hadded, hstore]
  · let sent : Session := (s.apply (.messageSent u m))
    have hsent : sent.connections.get? u = some { c with store := (c.store.insert m).2 } := by
      rw [s.get?_apply_of_addressee rfl, if_pos rfl, hc]
      rfl
    show (({ sent with version := sent.version + 1 } : Session).takeAcknowledgement u m.uri
      remote).petriNetDirty u = _
    unfold takeAcknowledgement
    simp only [hsent, hstore, hm', petriNetDirty_flagEffects, Message.hasEffects_congr hsame]
    rfl

/-! ## Both ways to hear of a delivered message -/

/-- An acknowledged send and the echo after it leave what the echo alone leaves: of the message, its
effects on the lifecycle, on the flag of the connection and on its petri net data. -/
theorem acknowledged_send_delivered (remote : Option Uri) (hc : s.connections.get? u = some c)
    (hown : m.direction = .outgoing) (hnew : c.store.get? m.uri = none) :
    ∃ told heard,
      (s.applyAll (Event.acknowledgedSend u m remote ++ Event.delivery u m remote)).connections.get?
          u = some told ∧
      (s.applyAll (Event.delivery u m remote)).connections.get? u = some heard ∧
      told.lifecycle = heard.lifecycle ∧ told.agreementStale = heard.agreementStale ∧
      (s.applyAll (Event.acknowledgedSend u m remote ++ Event.delivery u m remote)).petriNetDirty
          u =
        (s.applyAll (Event.delivery u m remote)).petriNetDirty u := by
  obtain ⟨store, hsent, hstored, hdirty⟩ := acknowledgedSend_of_new remote hc hnew
  obtain ⟨htold, htoldDirty⟩ := delivery_of_known remote hsent hown hstored
  obtain ⟨hheard, hheardDirty⟩ := delivery_of_new remote hc hown hnew
  rw [applyAll_append]
  exact ⟨_, _, htold, hheard, rfl, rfl, by rw [htoldDirty, hdirty, hheardDirty]⟩

/-- After a send that failed for the sender, the echo of the message leaves what the echo alone
leaves exactly as far as the message has no effect: in the lifecycle exactly if it stands for no
event that is legal, in the flag and in the petri net data exactly if it refers to no other message
or they are marked already. The stored copy is the same exactly if the message did not bear a
failure from before and the echo does not rename it. -/
theorem failed_send_delivered_iff (remote : Option Uri) (hc : s.connections.get? u = some c)
    (hown : m.direction = .outgoing) (hnew : c.store.get? m.uri = none) :
    ∃ denied heard,
      (s.applyAll (Event.failedSend u m ++ Event.delivery u m remote)).connections.get? u =
        some denied ∧
      (s.applyAll (Event.delivery u m remote)).connections.get? u = some heard ∧
      (denied.lifecycle.state = heard.lifecycle.state ↔
        ∀ e, LifecycleEvent.ofMessage? m = some e → c.lifecycle.state.next? e = none) ∧
      (denied.agreementStale = heard.agreementStale ↔
        (m.hasEffects = true → c.agreementStale = true)) ∧
      ((s.applyAll (Event.failedSend u m ++ Event.delivery u m remote)).petriNetDirty u =
          (s.applyAll (Event.delivery u m remote)).petriNetDirty u ↔
        (m.hasEffects = true → (s.tracker.connections.get? u).isSome = true →
          s.petriNetDirty u = true)) ∧
      (denied.store.get? m.uri = heard.store.get? m.uri ↔
        m.delivery.failedToSend = false ∧
          ∀ r r', m.remoteUri = some r → remote = some r' → r = r') := by
  obtain ⟨store, hsent, hstored, hdirty⟩ := failedSend_of_new hc hnew
  obtain ⟨hdenied, hdeniedDirty⟩ := delivery_of_known remote hsent hown hstored
  obtain ⟨hheard, hheardDirty⟩ := delivery_of_new remote hc hown hnew
  rw [applyAll_append]
  refine ⟨_, _, hdenied, hheard, ?_, ?_, ?_, ?_⟩
  · rw [← Lifecycle.state_absorb_eq_iff]
    exact eq_comm
  · cases c.agreementStale <;> cases m.hasEffects <;> simp
  · rw [hdeniedDirty, hdirty, hheardDirty]
    cases m.hasEffects with
    | false => simp
    | true =>
      unfold petriNetDirty
      cases s.tracker.connections.get? u <;> simp
  · show (store.insert (m.echo remote)).2.get? m.uri = (c.store.add (m.echo remote)).get? m.uri ↔ _
    rw [Store.get?_insert, hstored, Store.get?_add]
    simp only [Message.uri_echo, if_true, Option.elim_some, Option.some.injEq]
    exact Message.failed_merge_echo_iff

/-- A client with a connected connection. -/
def talking : Session :=
  (start 3).moves [.track fun t => (t.claim .connection ⟨"c"⟩).2,
    .event (.connectionLoaded ⟨⟨"c"⟩, .connected, ⟨"own#s"⟩, ⟨"peer#s"⟩⟩)]

/-- The own close of the connection. -/
def parting : Message :=
  .bare ⟨"m"⟩ .close .outgoing

/-- An own message that offers another. -/
def offering : Message :=
  .chat ⟨"m"⟩ .outgoing (References.none.insert .proposes ⟨"t"⟩)

/-- The close moves the lifecycle, so the echo after the failure leaves another state; it refers to
nothing, so the flag and the stored copy are the same. -/
theorem failed_send_delivered_iff_parting :
    ∃ c denied heard, talking.connections.get? ⟨"c"⟩ = some c ∧ parting.direction = .outgoing ∧
      c.store.get? parting.uri = none ∧
      (talking.applyAll (Event.failedSend ⟨"c"⟩ parting ++
        Event.delivery ⟨"c"⟩ parting (some ⟨"r"⟩))).connections.get? ⟨"c"⟩ = some denied ∧
      (talking.applyAll (Event.delivery ⟨"c"⟩ parting (some ⟨"r"⟩))).connections.get? ⟨"c"⟩ =
        some heard ∧
      denied.lifecycle.state ≠ heard.lifecycle.state ∧
      denied.agreementStale = heard.agreementStale ∧
      denied.store.get? parting.uri = heard.store.get? parting.uri := by
  obtain ⟨c, hc⟩ : ∃ c, talking.connections.get? ⟨"c"⟩ = some c :=
    Option.isSome_iff_exists.1 (by decide +kernel)
  have hconnected : (talking.connections.get? ⟨"c"⟩).map (·.lifecycle.state) = some .connected := by
    decide +kernel
  have hempty : (talking.connections.get? ⟨"c"⟩).map (·.store) = some .empty := by
    decide +kernel
  rw [hc, Option.map_some, Option.some.injEq] at hconnected hempty
  have hnew : c.store.get? parting.uri = none := by rw [hempty, Store.get?_empty]
  obtain ⟨denied, heard, hdenied, hheard, hstate, hstale, -, hcopy⟩ :=
    failed_send_delivered_iff (some ⟨"r"⟩) hc (m := parting) rfl hnew
  refine ⟨c, denied, heard, hc, rfl, hnew, hdenied, hheard, fun h => ?_, hstale.2 nofun,
    hcopy.2 ⟨rfl, nofun⟩⟩
  have hillegal := hstate.1 h .localClose rfl
  rw [hconnected] at hillegal
  cases hillegal

/-- The node takes in a close and an offer of which the sender is told that they failed, and sends
them back. The connection stays connected, is not flagged for reconciliation, and its petri net data
pass for current. -/
theorem failed_close_stays_connected :
    ((talking.connections.get? ⟨"c"⟩).map (·.store.isEmpty)) = some true ∧
    ((talking.applyAll (Event.failedSend ⟨"c"⟩ parting ++
      Event.delivery ⟨"c"⟩ parting none)).connections.get? ⟨"c"⟩).map (·.lifecycle.state) =
        some .connected ∧
    ((talking.applyAll (Event.delivery ⟨"c"⟩ parting none)).connections.get? ⟨"c"⟩).map
      (·.lifecycle.state) = some .closed ∧
    ((talking.applyAll (Event.failedSend ⟨"c"⟩ offering ++
      Event.delivery ⟨"c"⟩ offering none)).connections.get? ⟨"c"⟩).map (·.agreementStale) =
        some false ∧
    ((talking.applyAll (Event.delivery ⟨"c"⟩ offering none)).connections.get? ⟨"c"⟩).map
      (·.agreementStale) = some true ∧
    (talking.applyAll (Event.failedSend ⟨"c"⟩ offering ++
      Event.delivery ⟨"c"⟩ offering none)).petriNetDirty ⟨"c"⟩ = false ∧
    (talking.applyAll (Event.delivery ⟨"c"⟩ offering none)).petriNetDirty ⟨"c"⟩ = true := by
  decide +kernel

end Session

end Parley
