/-
What brings nothing new. Flagging a known atom, admitting another copy that tells nothing, taking in
a message of a connection that has it: such a step leaves everything as it is, and a step that does
bring something makes a count of changes grow. So many steps together change nothing exactly if none
of them does.
-/
import Parley.Proofs.Session.Delivery

namespace Parley

open Loading

/-! ## Steps that change nothing or grow -/

section

variable {β γ : Type} {f : β → γ → β} {size : β → Nat}

theorem eq_self_or_grows {P : Prop} {b b' : β} (h : P → b' = b) (h' : ¬ P → size b < size b') :
    b' = b ∨ size b < size b' := by
  by_cases hp : P
  · exact Or.inl (h hp)
  · exact Or.inr (h' hp)

theorem eq_self_iff_of_grows {P : Prop} {b b' : β} (h : P → b' = b)
    (h' : ¬ P → size b < size b') : b' = b ↔ P := by
  refine ⟨fun e => ?_, h⟩
  by_cases hp : P
  · exact hp
  · have hlt := h' hp
    rw [e] at hlt
    exact absurd hlt (Nat.lt_irrefl _)

theorem foldl_grows (h : ∀ b c, f b c = b ∨ size b < size (f b c)) (l : List γ) (b : β) :
    l.foldl f b = b ∨ size b < size (l.foldl f b) := by
  induction l generalizing b with
  | nil => exact Or.inl rfl
  | cons c l ih =>
    rw [List.foldl_cons]
    rcases h b c with e | hlt
    · rw [e]
      exact ih b
    · rcases ih (f b c) with e | hlt'
      · rw [e]
        exact Or.inr hlt
      · exact Or.inr (Nat.lt_trans hlt hlt')

/-- Steps each of which changes nothing or grows change nothing together exactly if none does. -/
theorem foldl_eq_self_iff (h : ∀ b c, f b c = b ∨ size b < size (f b c)) (l : List γ) (b : β) :
    l.foldl f b = b ↔ ∀ c ∈ l, f b c = b := by
  induction l with
  | nil => simp
  | cons c l ih =>
    rw [List.foldl_cons, List.forall_mem_cons]
    rcases h b c with e | hlt
    · rw [e, ih, eq_self_iff_true, true_and]
    · have hne : f b c ≠ b := fun e => by rw [e] at hlt; exact Nat.lt_irrefl _ hlt
      refine iff_of_false (fun e => ?_) fun hall => hne hall.1
      -- what grew does not come back
      rcases foldl_grows h l (f b c) with e' | hlt'
      · exact hne (e'.symm.trans e)
      · rw [e] at hlt'
        exact Nat.lt_asymm hlt hlt'

end

namespace Loading.Tracker

theorem flag_of_known {t : Tracker} {kind : ResourceKind} {u : Uri}
    (h : u.isBlank = true ∨ t.knows kind u = true) : (t.flag kind u).2 = t := by
  have h' : (u.isBlank || t.knows kind u) = true := by simpa using h
  simp [flag, h']

theorem version_lt_flag {t : Tracker} {kind : ResourceKind} {u : Uri}
    (h : ¬ (u.isBlank = true ∨ t.knows kind u = true)) :
    t.version < (t.flag kind u).2.version := by
  have h' : ¬ (u.isBlank || t.knows kind u) = true := by simpa using h
  rw [flag, if_neg h']
  cases kind <;> exact Nat.lt_succ_self _

theorem flag_grows (kind : ResourceKind) (t : Tracker) (u : Uri) :
    (t.flag kind u).2 = t ∨ t.version < (t.flag kind u).2.version :=
  eq_self_or_grows flag_of_known version_lt_flag

theorem flag_eq_self_iff {t : Tracker} {kind : ResourceKind} {u : Uri} :
    (t.flag kind u).2 = t ↔ u.isBlank = true ∨ t.knows kind u = true :=
  eq_self_iff_of_grows flag_of_known version_lt_flag

/-- Every atom behind the sockets of a message has a record, where receiving it would flag them. -/
def KnowsParticipants (t : Tracker) (m : Message) : Prop :=
  m.direction = .outgoing ∨ (∃ success, m.kind = .response success) ∨
    ∀ u ∈ m.sender?.toList ++ m.recipient?.toList, u.isBlank = true ∨ t.knows .atom u = true

theorem notice_grows (t : Tracker) (m : Message) :
    t.notice m = t ∨ t.version < (t.notice m).version := by
  cases hd : m.direction with
  | outgoing => exact Or.inl (by simp [notice, hd])
  | incoming =>
    simp only [notice, hd]
    unfold flagParticipants
    split
    · exact Or.inl rfl
    · exact foldl_grows (flag_grows .atom) _ t

theorem notice_eq_self_iff {t : Tracker} {m : Message} :
    t.notice m = t ↔ t.KnowsParticipants m := by
  cases hd : m.direction with
  | outgoing => simp [notice, KnowsParticipants, hd]
  | incoming =>
    simp only [notice, KnowsParticipants, hd]
    unfold flagParticipants
    split
    · rename_i success hm
      simp [hm]
    · rename_i hm
      rw [foldl_eq_self_iff (flag_grows .atom)]
      have hanswer : ¬ ∃ success, m.kind = .response success := fun ⟨success, h⟩ => hm success h
      simp only [flag_eq_self_iff, reduceCtorEq, hanswer, false_or]

end Loading.Tracker

/-! ## Messages that bring nothing -/

namespace Store

/-- The store has the message, and the copy tells nothing new. -/
def Has (s : Store) (m : Message) : Prop :=
  ∃ stored, s.get? m.uri = some stored ∧ stored.merge m = stored

theorem insert_of_has {s : Store} {m : Message} (h : s.Has m) : (s.insert m).2 = s := by
  obtain ⟨stored, hs, hm⟩ := h
  rw [insert_of_merge_eq hs hm]

theorem version_lt_insert {s : Store} {m : Message} (h : ¬ s.Has m) :
    s.version < (s.insert m).2.version := by
  unfold insert
  cases hm : s.messages.get? m.uri with
  | none => exact Nat.lt_succ_self _
  | some stored =>
    have hne : stored.merge m ≠ stored := fun e => h ⟨stored, hm, e⟩
    simp only [hne, if_false]
    exact Nat.lt_succ_self _

theorem insert_grows (s : Store) (m : Message) :
    (s.insert m).2 = s ∨ s.version < (s.insert m).2.version :=
  eq_self_or_grows insert_of_has version_lt_insert

theorem insert_eq_self_iff {s : Store} {m : Message} : (s.insert m).2 = s ↔ s.Has m :=
  eq_self_iff_of_grows insert_of_has version_lt_insert

theorem insertAll_eq_self_iff {s : Store} {ms : List Message} :
    s.insertAll ms = s ↔ ∀ m ∈ ms, s.Has m := by
  rw [insertAll, foldl_eq_self_iff insert_grows]
  simp only [insert_eq_self_iff]

end Store

namespace Session

/-- A message that brings nothing: it names no connection to be made, or the connection has it and
its participants are known. -/
inductive Ignores (s : Session) (u : Uri) (m : Message) : Prop
  | unnamed : s.connections.get? u = none → Connection.ofMessage? m = none → s.Ignores u m
  | known {c : Connection} : s.connections.get? u = some c → c.store.Has m →
      s.tracker.KnowsParticipants m → s.Ignores u m

/-- Grows with every change that a message brings to a connection. -/
def extent (u : Uri) (s : Session) : Nat :=
  s.tracker.version + ((s.connections.get? u).map fun c => c.store.version + 1).getD 0

theorem takeMessage_of_ignores {s : Session} {u : Uri} {m : Message} (h : s.Ignores u m) :
    s.takeMessage u m = s := by
  cases h with
  | unnamed hc hm =>
    unfold takeMessage UriMap.contains
    simp [hc, openConnection_eq, hm]
  | @known c hc hhas hknows =>
    obtain ⟨stored, hs, -⟩ := id hhas
    have hsame : s.connections.insert u c = s.connections := by
      refine UriMap.ext_get? fun v => ?_
      by_cases e : v = u <;> simp [e, hc]
    rw [takeMessage_of_known hc, admitMessage_of_known hc hs, Connection.take_of_known hs,
      Store.insert_of_has hhas, Tracker.notice_eq_self_iff.2 hknows]
    show { s with connections := s.connections.insert u c } = s
    rw [hsame]

theorem version_le_flagEffects (s : Session) (u : Uri) (m : Message) :
    s.tracker.version ≤ (s.flagEffects u m).tracker.version := by
  unfold flagEffects
  split
  · show s.tracker.version ≤ (s.tracker.invalidatePetriNet u).version
    unfold Tracker.invalidatePetriNet
    split
    · exact Nat.le_succ _
    · exact Nat.le_refl _
  · exact Nat.le_refl _

/-- What taking in a message of a known connection adds. -/
theorem extent_admitMessage {s : Session} {u : Uri} {c : Connection}
    (hc : s.connections.get? u = some c) (m : Message) :
    (s.tracker.notice m).version + ((c.store.insert m).2.version + 1) ≤
      (s.admitMessage u m).extent u := by
  have hget : (s.admitMessage u m).connections.get? u = some (c.take m) := by
    rw [← takeMessage_of_known hc, get?_takeMessage, if_pos rfl, hc]
    rfl
  have htracker : (s.tracker.notice m).version ≤ (s.admitMessage u m).tracker.version := by
    cases hm : c.store.get? m.uri with
    | none =>
      rw [admitMessage_of_new hc hm]
      exact version_le_flagEffects { s with
        connections := s.connections.insert u
          { c with store := c.store.add m, lifecycle := c.lifecycle.absorb m }
        tracker := s.tracker.notice m } u m
    | some stored => exact Nat.le_of_eq (by rw [admitMessage_of_known hc hm])
  unfold extent
  rw [hget, Option.map_some, Option.getD_some, Connection.store_take]
  omega

theorem extent_lt_takeMessage {s : Session} {u : Uri} {m : Message} (h : ¬ s.Ignores u m) :
    s.extent u < (s.takeMessage u m).extent u := by
  cases hc : s.connections.get? u with
  | some c =>
    have hle := extent_admitMessage hc m
    have hnotice := s.tracker.notice_grows m
    have hinsert := c.store.insert_grows m
    have hsize : s.extent u = s.tracker.version + (c.store.version + 1) := by simp [extent, hc]
    rw [takeMessage_of_known hc, hsize]
    by_cases hhas : c.store.Has m
    · have hknows : ¬ s.tracker.KnowsParticipants m := fun hk => h (.known hc hhas hk)
      rw [Store.insert_of_has hhas] at hle
      have hlt := hnotice.resolve_left fun e => hknows (Tracker.notice_eq_self_iff.1 e)
      omega
    · have hlt := Store.version_lt_insert hhas
      rcases hnotice with e | hgrows
      · rw [e] at hle
        omega
      · omega
  | none =>
    cases hm : Connection.ofMessage? m with
    | none => exact absurd (.unnamed hc hm) h
    | some c =>
      -- binding the new connection to its atom is a change already
      obtain ⟨opened, hopened⟩ : ∃ t : Session, t = { s with
          connections := s.connections.insert u c
          tracker := s.tracker.assignOwner u c.atom } := ⟨_, rfl⟩
      have htake : s.takeMessage u m = opened.admitMessage u m := by
        unfold takeMessage UriMap.contains
        simp [hc, openConnection_eq, hm, hopened]
      have hget : opened.connections.get? u = some c := by simp [hopened]
      have hversion : opened.tracker.version = s.tracker.version + 1 := by
        rw [hopened]
        rfl
      have hsize : s.extent u = s.tracker.version := by simp [extent, hc]
      have hle := extent_admitMessage hget m
      rw [htake, hsize]
      rcases opened.tracker.notice_grows m with e | hgrows
      · rw [e] at hle
        omega
      · omega

/-- A page changes nothing exactly if each of its messages brings nothing. -/
theorem takeMessages_eq_self_iff {s : Session} {u : Uri} {ms : List Message} :
    ms.foldl (fun s m => s.takeMessage u m) s = s ↔ ∀ m ∈ ms, s.Ignores u m := by
  have hgrows (s : Session) (m : Message) :
      s.takeMessage u m = s ∨ s.extent u < (s.takeMessage u m).extent u :=
    eq_self_or_grows takeMessage_of_ignores extent_lt_takeMessage
  have hiff (m : Message) : s.takeMessage u m = s ↔ s.Ignores u m :=
    eq_self_iff_of_grows takeMessage_of_ignores extent_lt_takeMessage
  rw [foldl_eq_self_iff hgrows]
  simp only [hiff]

end Session

end Parley
