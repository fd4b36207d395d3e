/-
The stores that the operations make of the empty one, and what holds of all of them: each message
is kept under its own name, and the index of remote names leads exactly to the stored messages that
have one. So a look-up under any identifier finds a message that is known under it, if there is one.

An operation adds a message under an unused name, or replaces a message by a later version of
itself, or changes nothing. A later version has the same name, and the same remote name unless
there was none. Adding and replacing keep the names coherent.
-/
import Parley.Store.Basic

namespace Parley

/-! ## Definitions -/

/-- A later version of a message has its name, and its remote name unless it had none. -/
structure Message.KeepsNames (old new : Message) : Prop where
  uri : new.uri = old.uri
  remote : old.remoteUri = none ∨ new.remoteUri = old.remoteUri

namespace Store

/-- The stores made by operations on the empty store. -/
inductive Reachable : Store → Prop
  | empty : Reachable .empty
  | insert {s : Store} (m : Message) : Reachable s → Reachable (s.insert m).2
  | acknowledge {s : Store} (u : Uri) (remote : Option Uri) :
      Reachable s → Reachable (s.acknowledge u remote).2
  | confirmDelivery {s : Store} (u : Uri) : Reachable s → Reachable (s.confirmDelivery u).2
  | recordFailure {s : Store} (u : Uri) : Reachable s → Reachable (s.recordFailure u).2
  | clearUnread {s : Store} (u : Uri) : Reachable s → Reachable (s.clearUnread u).2

/-- The names lead to the messages: a message is stored under its own name, and the remote names of
the stored messages are exactly the keys of the index. -/
structure Coherent (s : Store) : Prop where
  ownName : ∀ u m, s.get? u = some m → m.uri = u
  indexed : ∀ r u, s.remoteIndex.get? r = some u → ∃ m, s.get? u = some m ∧ m.remoteUri = some r
  complete : ∀ u m r, s.get? u = some m → m.remoteUri = some r → ∃ v, s.remoteIndex.get? r = some v

theorem Reachable.insertAll {s : Store} (h : s.Reachable) (ms : List Message) :
    (s.insertAll ms).Reachable := by
  induction ms generalizing s with
  | nil => exact h
  | cons m ms ih => exact ih (h.insert m)

theorem reachable_ofList (ms : List Message) : (ofList ms).Reachable :=
  Reachable.empty.insertAll ms

/-! ## Look-ups after adding and replacing -/

theorem get?_indexRemote (index : UriMap Uri) (remote : Option Uri) (u r : Uri) :
    (indexRemote index remote u).get? r = if remote = some r then some u else index.get? r := by
  cases remote with
  | none => simp [indexRemote]
  | some r' => simp [indexRemote, eq_comm]

theorem get?_add (s : Store) (m : Message) (v : Uri) :
    (s.add m).get? v = if v = m.uri then some m else s.get? v := by
  simp [add, get?]

theorem get?_replace (s : Store) (u : Uri) (old new : Message) (v : Uri) :
    (s.replace u old new).get? v = if v = u then some new else s.get? v := by
  simp [replace, get?]

/-! ## Adding and replacing keep the names coherent -/

theorem empty_coherent : Coherent .empty :=
  ⟨fun _ _ h => absurd h nofun, fun _ _ h => absurd h nofun, fun _ _ _ h => absurd h nofun⟩

theorem Coherent.add {s : Store} (h : s.Coherent) {m : Message} (hm : s.get? m.uri = none) :
    (s.add m).Coherent := by
  refine ⟨fun u n hn => ?_, fun r u hr => ?_, fun u n r hn hr => ?_⟩
  · rw [get?_add] at hn
    split at hn
    · rename_i e
      cases hn
      exact e.symm
    · exact h.ownName u n hn
  · have hr' : (if m.remoteUri = some r then some m.uri else s.remoteIndex.get? r) = some u := by
      rw [← get?_indexRemote]
      exact hr
    split at hr'
    · rename_i e
      cases hr'
      exact ⟨m, by rw [get?_add, if_pos rfl], e⟩
    · obtain ⟨n, hn, hnr⟩ := h.indexed r u hr'
      refine ⟨n, ?_, hnr⟩
      rw [get?_add, if_neg (fun e => by rw [e, hm] at hn; cases hn)]
      exact hn
  · show ∃ v, (indexRemote s.remoteIndex m.remoteUri m.uri).get? r = some v
    rw [get?_indexRemote]
    split
    · exact ⟨_, rfl⟩
    · rename_i e
      rw [get?_add] at hn
      split at hn
      · cases hn
        exact absurd hr e
      · exact h.complete u n r hn hr

theorem Coherent.replace {s : Store} (h : s.Coherent) {u : Uri} {old new : Message}
    (hold : s.get? u = some old) (hnew : old.KeepsNames new) : (s.replace u old new).Coherent := by
  have hindex (r : Uri) : (s.replace u old new).remoteIndex.get? r =
      if old.remoteUri = none ∧ new.remoteUri = some r then some u else s.remoteIndex.get? r := by
    unfold Store.replace
    by_cases e : old.remoteUri = none <;> simp [e, get?_indexRemote]
  refine ⟨fun v n hn => ?_, fun r v hr => ?_, fun v n r hn hr => ?_⟩
  · rw [get?_replace] at hn
    split at hn
    · rename_i e
      cases hn
      rw [hnew.uri, h.ownName u old hold, e]
    · exact h.ownName v n hn
  · rw [hindex] at hr
    split at hr
    · rename_i e
      cases hr
      exact ⟨new, by rw [get?_replace, if_pos rfl], e.2⟩
    · obtain ⟨n, hn, hnr⟩ := h.indexed r v hr
      rw [get?_replace]
      split
      · rename_i e
        -- the index leads to the replaced message, whose remote name is kept
        rw [e, hold] at hn
        cases hn
        rcases hnew.remote with hnone | hsame
        · rw [hnone] at hnr
          cases hnr
        · exact ⟨new, rfl, hsame.trans hnr⟩
      · exact ⟨n, hn, hnr⟩
  · rw [hindex]
    split
    · exact ⟨u, rfl⟩
    · rename_i e
      rw [get?_replace] at hn
      split at hn
      · cases hn
        rcases hnew.remote with hnone | hsame
        · exact absurd ⟨hnone, hr⟩ e
        · exact h.complete u old r hold (hsame.symm.trans hr)
      · exact h.complete v n r hn hr

/-- A remote name that is filled in replaces none. -/
theorem none_or_fill (stored filled : Option Uri) : stored = none ∨ stored.or filled = stored := by
  cases stored with
  | none => exact Or.inl rfl
  | some r => exact Or.inr rfl

theorem merge_keepsNames (stored copy : Message) : stored.KeepsNames (stored.merge copy) :=
  ⟨rfl, none_or_fill _ _⟩

theorem Coherent.insert {s : Store} (h : s.Coherent) (m : Message) : (s.insert m).2.Coherent := by
  unfold Store.insert
  cases hm : s.messages.get? m.uri with
  | none => exact h.add hm
  | some stored =>
    simp only
    split
    · exact h
    · exact h.replace hm (merge_keepsNames stored m)

theorem Coherent.edit {s : Store} (h : s.Coherent) (u : Uri) {f : Message → Message}
    (hf : ∀ m : Message, m.KeepsNames (f m)) : (s.edit u f).2.Coherent := by
  unfold Store.edit
  cases hm : s.messages.get? u with
  | none => exact h
  | some m => exact h.replace hm (hf m)

theorem Reachable.coherent {s : Store} (h : s.Reachable) : s.Coherent := by
  induction h with
  | empty => exact empty_coherent
  | insert m _ ih => exact ih.insert m
  | acknowledge u remote _ ih => exact ih.edit u fun m => ⟨rfl, none_or_fill _ _⟩
  | confirmDelivery u _ ih => exact ih.edit u fun m => ⟨rfl, Or.inr rfl⟩
  | recordFailure u _ ih => exact ih.edit u fun m => ⟨rfl, Or.inr rfl⟩
  | clearUnread u _ ih => exact ih.edit u fun m => ⟨rfl, Or.inr rfl⟩

/-! ## The stored messages -/

theorem mem_toList_iff {s : Store} {m : Message} : m ∈ s.toList ↔ ∃ u, s.get? u = some m :=
  UriMap.mem_values

/-- A look-up by local name finds the stored message of that name. -/
theorem Coherent.get?_eq_some_iff {s : Store} (h : s.Coherent) {u : Uri} {m : Message} :
    s.get? u = some m ↔ m ∈ s.toList ∧ m.uri = u := by
  rw [mem_toList_iff]
  constructor
  · exact fun hm => ⟨⟨u, hm⟩, h.ownName u m hm⟩
  · rintro ⟨⟨v, hv⟩, rfl⟩
    rw [h.ownName v m hv]
    exact hv

theorem Coherent.get?_uri {s : Store} (h : s.Coherent) {m : Message} (hm : m ∈ s.toList) :
    s.get? m.uri = some m :=
  h.get?_eq_some_iff.2 ⟨hm, rfl⟩

/-- No two stored messages have the same local name. -/
theorem Coherent.eq_of_uri_eq {s : Store} (h : s.Coherent) {m n : Message} (hm : m ∈ s.toList)
    (hn : n ∈ s.toList) (e : m.uri = n.uri) : m = n := by
  have := h.get?_uri hm
  rw [e, h.get?_uri hn] at this
  cases this
  rfl

/-- A stored message is found under its own name. -/
theorem Coherent.find?_uri {s : Store} (h : s.Coherent) {m : Message} (hm : m ∈ s.toList) :
    s.find? m.uri = some m := by
  have hget : s.messages.get? m.uri = some m := h.get?_uri hm
  unfold find?
  rw [hget, Option.some_or]

/-- A look-up under either name finds a stored message that is known under the identifier. -/
theorem Coherent.of_find? {s : Store} (h : s.Coherent) {u : Uri} {m : Message}
    (hm : s.find? u = some m) : m ∈ s.toList ∧ m.hasName u = true := by
  unfold find? at hm
  cases hl : s.messages.get? u with
  | some n =>
    rw [hl] at hm
    cases hm
    obtain ⟨hmem, hu⟩ := h.get?_eq_some_iff.1 hl
    exact ⟨hmem, Message.hasName_iff.2 (Or.inl hu)⟩
  | none =>
    rw [hl, Option.none_or] at hm
    obtain ⟨v, hv, hm⟩ := Option.bind_eq_some_iff.1 hm
    obtain ⟨n, hn, hr⟩ := h.indexed u v hv
    cases hn.symm.trans hm
    exact ⟨mem_toList_iff.2 ⟨v, hn⟩, Message.hasName_iff.2 (Or.inr hr)⟩

/-- A look-up under either name finds something exactly if some stored message is known under the
identifier. -/
theorem Coherent.find?_isSome_iff {s : Store} (h : s.Coherent) {u : Uri} :
    (s.find? u).isSome = true ↔ ∃ m ∈ s.toList, m.hasName u = true := by
  constructor
  · intro hu
    obtain ⟨m, hm⟩ := Option.isSome_iff_exists.1 hu
    exact ⟨m, h.of_find? hm⟩
  · rintro ⟨m, hm, hu⟩
    unfold find?
    rcases Message.hasName_iff.1 hu with e | e
    · have hl : s.messages.get? u = some m := h.get?_eq_some_iff.2 ⟨hm, e⟩
      simp [hl]
    · obtain ⟨v, hv⟩ := h.complete m.uri m u (h.get?_uri hm) e
      obtain ⟨n, hn, -⟩ := h.indexed u v hv
      have hn' : s.messages.get? v = some n := hn
      simp [hv, hn']

theorem insert_of_unused {s : Store} {n : Message} (hn : s.get? n.uri = none) :
    s.insert n = (.added, s.add n) := by
  unfold insert
  rw [show s.messages.get? n.uri = none from hn]

/-- A copy that tells nothing new changes nothing. -/
theorem insert_of_merge_eq {s : Store} {m stored : Message} (h : s.get? m.uri = some stored)
    (hsame : stored.merge m = stored) : s.insert m = (.unchanged, s) := by
  unfold insert
  rw [show s.messages.get? m.uri = some stored from h]
  simp only [if_pos hsame]

theorem insert_of_merge_ne {s : Store} {m stored : Message} (h : s.get? m.uri = some stored)
    (hnews : stored.merge m ≠ stored) :
    s.insert m = (.updated, s.replace m.uri stored (stored.merge m)) := by
  unfold insert
  rw [show s.messages.get? m.uri = some stored from h]
  simp only [if_neg hnews]

/-- A message under an unused local name is added to the others. -/
theorem mem_add_iff {s : Store} {n : Message} (hn : s.get? n.uri = none) {m : Message} :
    m ∈ (s.add n).toList ↔ m = n ∨ m ∈ s.toList := by
  simp only [mem_toList_iff, get?_add]
  constructor
  · rintro ⟨u, hu⟩
    split at hu
    · exact Or.inl (Option.some.inj hu).symm
    · exact Or.inr ⟨u, hu⟩
  · rintro (rfl | ⟨u, hu⟩)
    · exact ⟨m.uri, if_pos rfl⟩
    · refine ⟨u, ?_⟩
      rw [if_neg (fun e => by rw [e, hn] at hu; cases hu)]
      exact hu

theorem mem_insert_iff {s : Store} {n : Message} (hn : s.get? n.uri = none) {m : Message} :
    m ∈ (s.insert n).2.toList ↔ m = n ∨ m ∈ s.toList := by
  rw [insert_of_unused hn]
  exact mem_add_iff hn

/-- Messages under unused and distinct local names are added to the others. -/
theorem mem_insertAll_iff {ms : List Message} (hms : (ms.map (·.uri)).Nodup) {s : Store}
    (hs : ∀ m ∈ ms, s.get? m.uri = none) {x : Message} :
    x ∈ (s.insertAll ms).toList ↔ x ∈ ms ∨ x ∈ s.toList := by
  induction ms generalizing s with
  | nil => simp [insertAll]
  | cons m ms ih =>
    rw [List.map_cons, List.nodup_cons] at hms
    have hm : s.get? m.uri = none := hs m List.mem_cons_self
    have hrest : ∀ n ∈ ms, (s.add m).get? n.uri = none := by
      intro n hn
      have hne : n.uri ≠ m.uri := fun e => hms.1 (e ▸ List.mem_map_of_mem hn)
      rw [get?_add, if_neg hne]
      exact hs n (List.mem_cons_of_mem _ hn)
    have hstep : s.insertAll (m :: ms) = (s.add m).insertAll ms := by
      rw [insertAll, List.foldl_cons, insert_of_unused hm]
      rfl
    rw [hstep, ih hms.2 hrest, mem_add_iff hm, List.mem_cons, or_left_comm, or_assoc]

theorem mem_ofList_iff {ms : List Message} (hms : (ms.map (·.uri)).Nodup) {x : Message} :
    x ∈ (ofList ms).toList ↔ x ∈ ms := by
  rw [ofList, mem_insertAll_iff hms fun m _ => get?_empty m.uri]
  exact or_iff_left List.not_mem_nil

/-- A message under an unused local name hides no other message from a look-up. -/
theorem Coherent.find?_add {s : Store} (h : s.Coherent) {n : Message} (hn : s.get? n.uri = none)
    {r : Uri} (hr : n.hasName r = false) : (s.add n).find? r = s.find? r := by
  obtain ⟨hu, hremote⟩ : ¬ n.uri = r ∧ ¬ n.remoteUri = some r := by
    simpa [Message.hasName] using hr
  have hmessages (v : Uri) (hv : v ≠ n.uri) : (s.add n).messages.get? v = s.messages.get? v := by
    show (s.messages.insert n.uri n).get? v = _
    rw [UriMap.get?_insert, if_neg hv]
  have hindex : (s.add n).remoteIndex.get? r = s.remoteIndex.get? r := by
    show (indexRemote s.remoteIndex n.remoteUri n.uri).get? r = _
    rw [get?_indexRemote, if_neg hremote]
  unfold find?
  rw [hmessages r (Ne.symm hu), hindex]
  congr 1
  cases hv : s.remoteIndex.get? r with
  | none => rfl
  | some v =>
    -- the index leads to a stored message, which the new one is not
    obtain ⟨m, hm, -⟩ := h.indexed r v hv
    exact hmessages v fun e => by rw [e, hn] at hm; cases hm

end Store

end Parley
