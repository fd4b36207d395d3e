/-
What delivered messages do to a connection, pushed or paged. Of each message the first copy takes
effect: it moves the lifecycle and may flag the connection for reconciliation, and any further copy
only adds to what is known about it. An unknown connection is made by the first message whose
sockets name it, and messages before that are dropped. So a connection after any deliveries is the
one before with the effective messages absorbed in the order in which they arrived. An acknowledged
own message takes effect in the same way.
-/
import Parley.Proofs.Loading.InFlight
import Parley.Proofs.Store.Log
import Parley.Session.Basic

namespace Parley

open Loading

theorem Message.hasEffects_congr {m m' : Message} (h : m'.unannotated = m.unannotated) :
    m'.hasEffects = m.hasEffects := by
  show m'.unannotated.hasEffects = m.unannotated.hasEffects
  rw [h]

/-- What a lifecycle absorbs of a message is known when the message is admitted. -/
theorem Lifecycle.absorb_congr {l : Lifecycle} {m m' : Message}
    (h : m'.unannotated = m.unannotated) : l.absorb m' = l.absorb m := by
  show l.absorb m'.unannotated = l.absorb m.unannotated
  rw [h]

theorem Store.acknowledge_of_known {s : Store} {u : Uri} {m : Message} (h : s.get? u = some m)
    (remote : Option Uri) :
    ∃ t m', s.acknowledge u remote = (true, t) ∧ t.get? u = some m' ∧
      m'.unannotated = m.unannotated := by
  have hknown : (s.acknowledge u remote).1 = true := by
    have h' : s.messages.get? u = some m := h
    simp [acknowledge, edit, h']
  have hstored := get?_edit s u u fun m =>
    { m with
      remoteUri := m.remoteUri.or remote
      delivery := { m.delivery with receivedByOwn := true, failedToSend := false } }
  rw [if_pos rfl, h] at hstored
  exact ⟨_, _, Prod.ext hknown rfl, hstored, rfl⟩

/-- The load records after the participants of a received message were flagged for loading. -/
def Loading.Tracker.notice (t : Tracker) (m : Message) : Tracker :=
  match m.direction with
  | .incoming => t.flagParticipants m
  | .outgoing => t

namespace Connection

/-! ## Definitions -/

/-- The connection that a message makes of its sockets, the own one first, if they name it. -/
def ofMessage? (m : Message) : Option Connection := do
  let (own, target) := match m.direction with
    | .outgoing => (m.senderSocket, m.targetSocket)
    | .incoming => (m.targetSocket, m.senderSocket)
  let own ← own
  let target ← target
  let atom ← own.atom?
  return .fresh atom own target .start

/-- A connection after a message arrives: a new message takes effect, and another copy of a known
one only adds to it. -/
def take (c : Connection) (m : Message) : Connection :=
  match c.store.insert m with
  | (.added, store) =>
    { c with
      store := store
      lifecycle := c.lifecycle.absorb m
      agreementStale := c.agreementStale || m.hasEffects }
  | (_, store) => { c with store := store }

/-- What is known of a connection after a message arrives: an unknown one is made of its sockets. -/
def hear (c : Option Connection) (m : Message) : Option Connection :=
  (c.or (ofMessage? m)).map (·.take m)

/-- Whether a message takes effect when it arrives: its connection is known or made of its sockets,
and does not have the message yet. -/
def heeds (c : Option Connection) (m : Message) : Bool :=
  (c.or (ofMessage? m)).any fun c => (c.store.get? m.uri).isNone

/-- The delivered messages that take effect, in the order in which they do. -/
def effective : Option Connection → List Message → List Message
  | _, [] => []
  | c, m :: ms => if heeds c m then m :: effective (hear c m) ms else effective (hear c m) ms

/-- A connection after the node acknowledges an own message, which now takes effect. -/
def acknowledge (c : Connection) (event : Uri) (remote : Option Uri) : Connection :=
  match c.store.get? event with
  | none => c
  | some m =>
    { c with
      store := (c.store.acknowledge event remote).2
      lifecycle := c.lifecycle.absorb m
      agreementStale := c.agreementStale || m.hasEffects }

/-- What an unknown connection counts as before its first message. -/
def blank : Connection := .fresh ⟨""⟩ ⟨""⟩ ⟨""⟩ .start

/-! ## One message -/

theorem take_of_new {c : Connection} {m : Message} (h : c.store.get? m.uri = none) :
    c.take m = { c with
      store := c.store.add m
      lifecycle := c.lifecycle.absorb m
      agreementStale := c.agreementStale || m.hasEffects } := by
  have h' : c.store.messages.get? m.uri = none := h
  simp [take, Store.insert, h']

theorem take_of_known {c : Connection} {m stored : Message} (h : c.store.get? m.uri = some stored) :
    c.take m = { c with store := (c.store.insert m).2 } := by
  unfold take
  by_cases e : stored.merge m = stored
  · rw [Store.insert_of_merge_eq h e]
  · rw [Store.insert_of_merge_ne h e]

theorem store_take (c : Connection) (m : Message) : (c.take m).store = (c.store.insert m).2 := by
  unfold take
  split <;> rename_i h <;> rw [h]

theorem ofMessage?_eq_some {c : Connection} {m : Message} (h : ofMessage? m = some c) :
    c.lifecycle = .start ∧ c.store = .empty ∧ c.agreementStale = false := by
  unfold ofMessage? at h
  simp only [Option.bind_eq_bind, Option.pure_def, Option.bind_eq_some_iff] at h
  obtain ⟨own, -, target, -, atom, -, hc⟩ := h
  cases hc
  exact ⟨rfl, rfl, rfl⟩

/-- A message that takes effect is added to the connection, or to the one it makes. -/
theorem hear_of_heeds {c : Option Connection} {m : Message} (h : heeds c m = true) :
    ∃ b : Connection, (b.lifecycle = (c.getD blank).lifecycle ∧ b.store = (c.getD blank).store ∧
        b.agreementStale = (c.getD blank).agreementStale) ∧
      b.store.get? m.uri = none ∧ hear c m = some (b.take m) := by
  unfold heeds at h
  obtain ⟨b, hb, hnew⟩ := Option.any_eq_true _ _ |>.1 h
  refine ⟨b, ?_, by simpa using hnew, by simp [hear, hb]⟩
  cases c with
  | none => exact ofMessage?_eq_some (by simpa using hb)
  | some c =>
    cases hb
    exact ⟨rfl, rfl, rfl⟩

/-- A message that takes no effect is dropped, or it is another copy of a stored one. -/
theorem hear_of_not_heeds {c : Option Connection} {m : Message} (h : ¬ heeds c m = true) :
    (c = none ∧ hear c m = none) ∨
      ∃ b stored, c = some b ∧ b.store.get? m.uri = some stored ∧ hear c m = some (b.take m) := by
  unfold heeds at h
  cases c with
  | none =>
    refine Or.inl ⟨rfl, ?_⟩
    cases hb : ofMessage? m with
    | none => simp [hear, hb]
    | some b =>
      -- a connection made just now has no message
      simp [hb, (ofMessage?_eq_some hb).2.1] at h
  | some b =>
    cases hm : b.store.get? m.uri with
    | none => simp [hm] at h
    | some stored => exact Or.inr ⟨b, stored, rfl, hm, rfl⟩

/-! ## Deliveries -/

/-- After deliveries, the lifecycle has absorbed the effective messages, and the connection is
flagged if it was before or one of them refers to others. -/
theorem deliver {ms : List Message} {c : Option Connection} {d : Connection}
    (h : ms.foldl hear c = some d) :
    d.lifecycle = (effective c ms).foldl Lifecycle.absorb (c.getD blank).lifecycle ∧
      d.agreementStale =
        ((c.getD blank).agreementStale || (effective c ms).any (·.hasEffects)) := by
  fun_induction effective c ms with
  | case1 c =>
    have : c = some d := h
    subst this
    simp
  | case2 c m ms hm ih =>
    obtain ⟨b, ⟨hl, -, hs⟩, hnew, hb⟩ := hear_of_heeds hm
    have ih := ih h
    rw [hb] at ih ⊢
    simpa [take_of_new hnew, hl, hs, Bool.or_assoc] using ih
  | case3 c m ms hm ih =>
    have ih := ih h
    obtain ⟨rfl, hn⟩ | ⟨b, stored, rfl, hk, hb⟩ := hear_of_not_heeds hm
    · rw [hn] at ih ⊢
      exact ih
    · rw [hb] at ih ⊢
      simpa [take_of_known hk] using ih

/-- After deliveries, the stored messages are the earlier ones and the effective ones, apart from
what further copies filled in. -/
theorem get?_deliver {ms : List Message} {c : Option Connection} {d : Connection}
    (h : ms.foldl hear c = some d) (v : Uri) :
    (d.store.get? v).map Message.unannotated =
      (((c.getD blank).store.get? v).or ((effective c ms).find? (·.uri = v))).map
        Message.unannotated := by
  fun_induction effective c ms with
  | case1 c =>
    have : c = some d := h
    subst this
    simp
  | case2 c m ms hm ih =>
    obtain ⟨b, ⟨-, hst, -⟩, hnew, hb⟩ := hear_of_heeds hm
    rw [ih h, hb, ← hst, Option.getD_some, store_take, Store.get?_insert]
    by_cases e : v = m.uri
    · subst e
      simp [hnew]
    · simp [e, Ne.symm e]
  | case3 c m ms hm ih =>
    rw [ih h]
    obtain ⟨rfl, hn⟩ | ⟨b, stored, rfl, hk, hb⟩ := hear_of_not_heeds hm
    · rw [hn]
    · -- the stored copy only gains annotations
      rw [hb, Option.getD_some, Option.getD_some, store_take, Store.get?_insert]
      by_cases e : v = m.uri
      · subst e
        simp [hk]
      · simp [e]

theorem deliver_isSome_iff {ms : List Message} {c : Option Connection} :
    (ms.foldl hear c).isSome = true ↔ c.isSome = true ∨ ∃ m ∈ ms, (ofMessage? m).isSome = true := by
  induction ms generalizing c with
  | nil => simp
  | cons m ms ih =>
    rw [List.foldl_cons, ih]
    cases c <;> simp [hear]

/-! ## Effective messages as first copies -/

/-- The messages without further copies of earlier ones. -/
def firstCopies (ms : List Message) : List Message :=
  ms.eraseDupsBy fun a b => a.uri == b.uri

theorem firstCopies_cons (m : Message) (ms : List Message) :
    firstCopies (m :: ms) = m :: firstCopies (ms.filter fun a => a.uri ≠ m.uri) := by
  unfold firstCopies
  rw [List.eraseDupsBy_cons]
  congr 2
  exact List.filter_congr fun a _ => by simp

/-- Induction over the first copies: each one stands before those of other messages. -/
theorem firstCopies_induct {motive : List Message → Prop} (nil : motive [])
    (cons : ∀ m ms, motive (ms.filter fun a => a.uri ≠ m.uri) → motive (m :: ms))
    (ms : List Message) : motive ms := by
  induction h : ms.length using Nat.strongRecOn generalizing ms with
  | ind n ih =>
    cases ms with
    | nil => exact nil
    | cons m ms =>
      have hlt : (ms.filter fun a => a.uri ≠ m.uri).length < n :=
        h ▸ Nat.lt_succ_of_le (List.length_filter_le _ _)
      exact cons m ms (ih _ hlt _ rfl)

theorem firstCopies_sublist (ms : List Message) : (firstCopies ms).Sublist ms := by
  induction ms using firstCopies_induct with
  | nil => exact .slnil
  | cons m ms ih =>
    rw [firstCopies_cons]
    exact (ih.trans List.filter_sublist).cons_cons m

theorem nodup_firstCopies (ms : List Message) : ((firstCopies ms).map (·.uri)).Nodup := by
  induction ms using firstCopies_induct with
  | nil => exact .nil
  | cons m ms ih =>
    rw [firstCopies_cons, List.map_cons, List.nodup_cons]
    refine ⟨fun hm => ?_, ih⟩
    obtain ⟨a, ha, e⟩ := List.mem_map.1 hm
    simpa [e] using (List.mem_filter.1 ((firstCopies_sublist _).subset ha)).2

/-- At a known connection, the first copies of the messages it does not have take effect. -/
theorem effective_some (ms : List Message) (c : Connection) :
    effective (some c) ms = firstCopies (ms.filter fun m => (c.store.get? m.uri).isNone) := by
  induction ms generalizing c with
  | nil => rfl
  | cons m ms ih =>
    have hknown (a : Message) : ((c.take m).store.get? a.uri).isNone =
        (decide (a.uri ≠ m.uri) && (c.store.get? a.uri).isNone) := by
      rw [store_take, Store.get?_insert]
      by_cases e : a.uri = m.uri <;> simp [e]
    have hrest : effective (hear (some c) m) ms = firstCopies
        (ms.filter fun a => decide (a.uri ≠ m.uri) && (c.store.get? a.uri).isNone) := by
      rw [show hear (some c) m = some (c.take m) from rfl, ih]
      simp only [hknown]
    have hh : heeds (some c) m = (c.store.get? m.uri).isNone := by simp [heeds]
    cases hm : c.store.get? m.uri with
    | none =>
      have hnew : (c.store.get? m.uri).isNone = true := by simp [hm]
      rw [effective, hh, if_pos hnew, hrest,
        List.filter_cons_of_pos (p := fun a : Message => (c.store.get? a.uri).isNone) hnew,
        firstCopies_cons, List.filter_filter]
    | some stored =>
      have hold : ¬ (c.store.get? m.uri).isNone = true := by simp [hm]
      rw [effective, hh, if_neg hold, hrest,
        List.filter_cons_of_neg (p := fun a : Message => (c.store.get? a.uri).isNone) hold]
      congr 1
      refine List.filter_congr fun a _ => ?_
      by_cases e : a.uri = m.uri
      · simp [e, hm]
      · simp [e]

/-- At an unknown connection, the first copies take effect, from the first message that names it. -/
theorem effective_none (ms : List Message) :
    effective none ms = firstCopies (ms.dropWhile fun m => (ofMessage? m).isNone) := by
  induction ms with
  | nil => rfl
  | cons m ms ih =>
    cases hm : ofMessage? m with
    | none =>
      have hn : hear none m = none := by simp [hear, hm]
      have hh : ¬ heeds none m = true := by simp [heeds, hm]
      rw [effective, if_neg hh, hn, ih, List.dropWhile_cons_of_pos (by simp [hm])]
    | some b =>
      have hempty := (ofMessage?_eq_some hm).2.1
      have hb : hear none m = some (b.take m) := by simp [hear, hm]
      have hh : heeds none m = true := by simp [heeds, hm, hempty]
      rw [effective, if_pos hh, hb, effective_some, List.dropWhile_cons_of_neg (by simp [hm]),
        firstCopies_cons]
      congr 2
      refine List.filter_congr fun a _ => ?_
      rw [store_take, Store.get?_insert, hempty]
      by_cases e : a.uri = m.uri <;> simp [e]

end Connection

/-! ## Messages of a session -/

namespace Session

theorem openConnection_eq (s : Session) (u : Uri) (m : Message) :
    s.openConnection u m = (Connection.ofMessage? m).map fun c =>
      { s with
        connections := s.connections.insert u c
        tracker := s.tracker.assignOwner u c.atom } := by
  unfold openConnection Connection.ofMessage?
  simp only [Option.bind_eq_bind, Option.pure_def, Option.map_bind, Function.comp_def]
  rfl

theorem takeMessage_of_known {s : Session} {u : Uri} {c : Connection}
    (hc : s.connections.get? u = some c) (m : Message) :
    s.takeMessage u m = s.admitMessage u m := by
  unfold takeMessage UriMap.contains
  simp [hc]

theorem admitMessage_of_new {s : Session} {u : Uri} {m : Message} {c : Connection}
    (hc : s.connections.get? u = some c) (hm : c.store.get? m.uri = none) :
    s.admitMessage u m =
      ({ s with
        connections := s.connections.insert u
          { c with store := c.store.add m, lifecycle := c.lifecycle.absorb m }
        tracker := s.tracker.notice m } : Session).flagEffects u m := by
  unfold admitMessage Tracker.notice
  cases m.direction <;> simp [hc, Store.insert_of_unused hm]

theorem admitMessage_of_known {s : Session} {u : Uri} {m stored : Message} {c : Connection}
    (hc : s.connections.get? u = some c) (hm : c.store.get? m.uri = some stored) :
    s.admitMessage u m =
      { s with
        connections := s.connections.insert u (c.take m)
        tracker := s.tracker.notice m } := by
  rw [Connection.take_of_known hm]
  unfold admitMessage Tracker.notice
  by_cases e : stored.merge m = stored
  · cases m.direction <;> simp [hc, Store.insert_of_merge_eq hm e]
  · cases m.direction <;> simp [hc, Store.insert_of_merge_ne hm e]

theorem get?_flagEffects (s : Session) (u v : Uri) (m : Message) :
    (s.flagEffects u m).connections.get? v =
      if v = u then (s.connections.get? u).map fun c =>
        { c with agreementStale := c.agreementStale || m.hasEffects }
      else s.connections.get? v := by
  unfold flagEffects updateConnection
  cases m.hasEffects <;> by_cases e : v = u <;> simp [e]

/-- A message reaches its connection and no other. -/
theorem get?_takeMessage (s : Session) (u v : Uri) (m : Message) :
    (s.takeMessage u m).connections.get? v =
      if v = u then Connection.hear (s.connections.get? u) m else s.connections.get? v := by
  have htaken (s : Session) (c : Connection) (hc : s.connections.get? u = some c) :
      (s.admitMessage u m).connections.get? v =
        if v = u then some (c.take m) else s.connections.get? v := by
    cases hm : c.store.get? m.uri with
    | none =>
      rw [admitMessage_of_new hc hm, get?_flagEffects, Connection.take_of_new hm]
      by_cases e : v = u <;> simp [e]
    | some stored => simp [admitMessage_of_known hc hm]
  unfold takeMessage UriMap.contains
  rw [openConnection_eq]
  cases hc : s.connections.get? u with
  | some c => simp [htaken s c hc, Connection.hear]
  | none =>
    cases hm : Connection.ofMessage? m with
    | none => by_cases e : v = u <;> simp [Connection.hear, hm, hc, e]
    | some c =>
      rw [Option.map_some]
      simp only [Option.isSome_none, Bool.false_eq_true, if_false]
      rw [htaken _ c (by simp)]
      by_cases e : v = u <;> simp [Connection.hear, hm, e]

theorem get?_takeMessages (ms : List Message) (s : Session) (u v : Uri) :
    (ms.foldl (fun s m => s.takeMessage u m) s).connections.get? v =
      if v = u then ms.foldl Connection.hear (s.connections.get? u) else s.connections.get? v := by
  induction ms generalizing s with
  | nil => by_cases e : v = u <;> simp [e]
  | cons m ms ih =>
    rw [List.foldl_cons, ih, get?_takeMessage, get?_takeMessage]
    by_cases e : v = u <;> simp [e]

theorem get?_takeAcknowledgement (s : Session) (u v event : Uri) (remote : Option Uri) :
    (s.takeAcknowledgement u event remote).connections.get? v =
      if v = u then (s.connections.get? u).map (·.acknowledge event remote)
      else s.connections.get? v := by
  unfold takeAcknowledgement
  cases hc : s.connections.get? u with
  | none => by_cases e : v = u <;> simp [e, hc]
  | some c =>
    cases hm : c.store.get? event with
    | none =>
      have hm' : c.store.messages.get? event = none := hm
      by_cases e : v = u <;>
        simp [Connection.acknowledge, Store.acknowledge, Store.edit, hm', hc, hm, e]
    | some m =>
      obtain ⟨store, m', hstore, hm', hsame⟩ := Store.acknowledge_of_known hm remote
      simp only [hstore, hm', get?_flagEffects, Option.map_some, Connection.acknowledge, hm]
      rw [Lifecycle.absorb_congr hsame, Message.hasEffects_congr hsame]
      by_cases e : v = u <;> simp [e]

theorem tracker_mergeConnection (s : Session) (d : ConnectionDocument) :
    (s.mergeConnection d).tracker = s.tracker := by
  unfold mergeConnection
  split
  · rfl
  · split
    · split <;> rfl
    · rfl

end Session

/-! ## Load records -/

/-- A relation between load records that holds for whatever a message may do to them. -/
structure Tracker.AllowsMessages (R : Tracker → Tracker → Prop) : Prop extends
    Tracker.AllowsFlags R where
  owner : ∀ (t : Tracker) u atom, R t (t.assignOwner u atom)
  petriNet : ∀ (t : Tracker) u, R t (t.invalidatePetriNet u)

namespace Tracker.AllowsMessages

variable {R : Tracker → Tracker → Prop} (h : AllowsMessages R)
include h

theorem notice (t : Tracker) (m : Message) : R t (t.notice m) := by
  unfold Tracker.notice
  cases m.direction with
  | incoming => exact h.toAllowsFlags.participants t m
  | outgoing => exact h.refl t

theorem flagEffects (s : Session) (u : Uri) (m : Message) :
    R s.tracker (s.flagEffects u m).tracker := by
  unfold Session.flagEffects
  split
  · exact h.petriNet s.tracker u
  · exact h.refl s.tracker

theorem takeMessage (s : Session) (u : Uri) (m : Message) :
    R s.tracker (s.takeMessage u m).tracker := by
  have htaken (s : Session) (c : Connection) (hc : s.connections.get? u = some c) :
      R s.tracker (s.admitMessage u m).tracker := by
    cases hm : c.store.get? m.uri with
    | none =>
      rw [Session.admitMessage_of_new hc hm]
      exact h.trans (h.notice s.tracker m) (h.flagEffects { s with
        connections := s.connections.insert u
          { c with store := c.store.add m, lifecycle := c.lifecycle.absorb m }
        tracker := s.tracker.notice m } u m)
    | some stored =>
      rw [Session.admitMessage_of_known hc hm]
      exact h.notice s.tracker m
  cases hc : s.connections.get? u with
  | some c =>
    rw [Session.takeMessage_of_known hc]
    exact htaken s c hc
  | none =>
    unfold Session.takeMessage UriMap.contains
    rw [Session.openConnection_eq, hc]
    cases Connection.ofMessage? m with
    | none => exact h.refl s.tracker
    | some c =>
      let opened : Session := { s with
        connections := s.connections.insert u c
        tracker := s.tracker.assignOwner u c.atom }
      have hopened : opened.connections.get? u = some c := by simp [opened]
      exact h.trans (h.owner s.tracker u c.atom) (htaken opened c hopened)

theorem takeMessages (ms : List Message) (s : Session) (u : Uri) :
    R s.tracker (ms.foldl (fun s m => s.takeMessage u m) s).tracker := by
  induction ms generalizing s with
  | nil => exact h.refl s.tracker
  | cons m ms ih => exact h.trans (h.takeMessage s u m) (ih _)

theorem takeAcknowledgement (s : Session) (u event : Uri) (remote : Option Uri) :
    R s.tracker (s.takeAcknowledgement u event remote).tracker := by
  unfold Session.takeAcknowledgement
  cases s.connections.get? u with
  | none => exact h.refl s.tracker
  | some c =>
    simp only
    split
    · exact h.refl s.tracker
    · rename_i store _
      split
      · exact h.refl s.tracker
      · rename_i m _
        exact h.flagEffects { s with
          connections := s.connections.insert u
            { c with store := store, lifecycle := c.lifecycle.absorb m } } u m

/-- Once its fetch landed, a container only binds the connections that it lists. -/
theorem takeContainer (s : Session) (atom : Uri) (data : List ConnectionDocument) :
    R (s.tracker.completeContainer atom (data.map fun d => (d.uri, d.counterpart?))).2
      (s.takeContainer atom data).tracker := by
  have hlisted (ds : List ConnectionDocument) (s : Session) :
      R s.tracker (ds.foldl (Session.addListed atom) s).tracker := by
    induction ds generalizing s with
    | nil => exact h.refl _
    | cons d ds ih =>
      have hbound : R s.tracker (Session.addListed atom s d).tracker := by
        show R s.tracker ((s.mergeConnection d).tracker.assignOwner d.uri atom)
        rw [Session.tracker_mergeConnection]
        exact h.owner s.tracker d.uri atom
      exact h.trans hbound (ih _)
  unfold Session.takeContainer
  split
  · rename_i t ht
    rw [ht]
    exact h.refl t
  · rename_i t ht
    rw [ht]
    exact hlisted data { s with tracker := t }

/-- Once its fetch landed, a connection is bound to the atom that it names. -/
theorem takeConnection (s : Session) (d : ConnectionDocument) :
    R (s.tracker.complete .connection d.uri none).2 (s.takeConnection d).tracker := by
  unfold Session.takeConnection
  split
  · rename_i t ht
    rw [ht, Tracker.complete_of_refused ht]
    exact h.refl s.tracker
  · rename_i t ht
    rw [ht, Session.tracker_mergeConnection]
    cases d.owner? with
    | none => exact h.refl t
    | some atom => exact h.owner t d.uri atom

end Tracker.AllowsMessages

end Parley
