/-
The store under sequences of operations. Whatever is done to the store, a message stays under its
own name, and nothing happens to it but revisions: each of them fills in what was not known yet, and
none takes a name away. Main statement: from the empty store on, the names lead to the messages, and
a name under which a message was found finds one ever after, be it that the remote name of one
message is claimed by another, or is the own name of a third.
-/
import Parley.Proofs.Store.Reachable

namespace Parley

/-! ## Revisions of a message -/

namespace Message

/-- What a stored message may hear later. -/
inductive Revision where
  | copy (c : Message)
  | acknowledged (remote : Option Uri)
  | delivered
  | failed
  | read

/-- The message after it heard something. -/
def revise (m : Message) : Revision → Message
  | .copy c => m.merge c
  | .acknowledged remote =>
    { m with
      remoteUri := m.remoteUri.or remote
      delivery := { m.delivery with receivedByOwn := true, failedToSend := false } }
  | .delivered => { m with delivery := { m.delivery with receivedByRemote := true } }
  | .failed => { m with delivery := { m.delivery with failedToSend := true } }
  | .read => { m with unread := false }

theorem KeepsNames.refl (m : Message) : m.KeepsNames m :=
  ⟨rfl, Or.inr rfl⟩

theorem KeepsNames.trans {a b c : Message} (hab : a.KeepsNames b) (hbc : b.KeepsNames c) :
    a.KeepsNames c := by
  refine ⟨hbc.uri.trans hab.uri, ?_⟩
  rcases hab.remote with hnone | hsame
  · exact Or.inl hnone
  · rw [← hsame]
    exact hbc.remote

/-- A later version of a message is known under every name that the message had. -/
theorem KeepsNames.hasName {old new : Message} (h : old.KeepsNames new) {u : Uri}
    (hu : old.hasName u = true) : new.hasName u = true := by
  rw [hasName_iff] at hu ⊢
  rcases hu with rfl | hr
  · exact Or.inl h.uri
  · rcases h.remote with hnone | hsame
    · rw [hnone] at hr
      cases hr
    · exact Or.inr (hsame.trans hr)

theorem revise_keepsNames (m : Message) (r : Revision) : m.KeepsNames (m.revise r) := by
  cases r with
  | copy c => exact Store.merge_keepsNames m c
  | acknowledged remote => exact ⟨rfl, Store.none_or_fill _ _⟩
  | delivered => exact ⟨rfl, Or.inr rfl⟩
  | failed => exact ⟨rfl, Or.inr rfl⟩
  | read => exact ⟨rfl, Or.inr rfl⟩

theorem foldl_revise_keepsNames (m : Message) (rs : List Revision) :
    m.KeepsNames (rs.foldl revise m) := by
  induction rs generalizing m with
  | nil => exact .refl m
  | cons r rs ih => exact (m.revise_keepsNames r).trans (ih _)

end Message

namespace Store

/-! ## Operations -/

/-- An operation on the store. Looking something up is none, as it changes nothing. -/
inductive Operation where
  | insert (m : Message)
  | extend (ms : List Message)
  | acknowledge (u : Uri) (remote : Option Uri)
  | confirmDelivery (u : Uri)
  | recordFailure (u : Uri)
  | clearUnread (u : Uri)

/-- The store after an operation. -/
def perform (s : Store) : Operation → Store
  | .insert m => (s.insert m).2
  | .extend ms => s.insertAll ms
  | .acknowledge u remote => (s.acknowledge u remote).2
  | .confirmDelivery u => (s.confirmDelivery u).2
  | .recordFailure u => (s.recordFailure u).2
  | .clearUnread u => (s.clearUnread u).2

/-- The store after operations, one after another. -/
def performAll (s : Store) (ops : List Operation) : Store :=
  ops.foldl perform s

theorem Reachable.perform {s : Store} (h : s.Reachable) (op : Operation) :
    (s.perform op).Reachable := by
  cases op with
  | insert m => exact h.insert m
  | extend ms => exact h.insertAll ms
  | acknowledge u remote => exact h.acknowledge u remote
  | confirmDelivery u => exact h.confirmDelivery u
  | recordFailure u => exact h.recordFailure u
  | clearUnread u => exact h.clearUnread u

theorem Reachable.performAll {s : Store} (h : s.Reachable) (ops : List Operation) :
    (s.performAll ops).Reachable := by
  induction ops generalizing s with
  | nil => exact h
  | cons op ops ih => exact ih (h.perform op)

/-! ## What operations do to a stored message -/

section

variable {s : Store} {u : Uri} {m : Message}

theorem exists_revisions_insert (h : s.get? u = some m) (c : Message) :
    ∃ rs : List Message.Revision, (s.insert c).2.get? u = some (rs.foldl Message.revise m) := by
  rw [get?_insert, h]
  by_cases e : u = c.uri
  · exact ⟨[.copy c], if_pos e⟩
  · exact ⟨[], if_neg e⟩

theorem exists_revisions_insertAll (h : s.get? u = some m) (cs : List Message) :
    ∃ rs : List Message.Revision, (s.insertAll cs).get? u = some (rs.foldl Message.revise m) := by
  induction cs generalizing s m with
  | nil => exact ⟨[], h⟩
  | cons c cs ih =>
    obtain ⟨rs, hrs⟩ := exists_revisions_insert h c
    obtain ⟨more, hmore⟩ := ih hrs
    exact ⟨rs ++ more, by rw [List.foldl_append]; exact hmore⟩

theorem exists_revisions_edit (h : s.get? u = some m) (v : Uri) (r : Message.Revision) :
    ∃ rs : List Message.Revision,
      (s.edit v (·.revise r)).2.get? u = some (rs.foldl Message.revise m) := by
  rw [get?_edit, h]
  by_cases e : u = v
  · exact ⟨[r], if_pos e⟩
  · exact ⟨[], if_neg e⟩

/-- An operation leaves a stored message where it is, but for revisions. -/
theorem exists_revisions_perform (h : s.get? u = some m) (op : Operation) :
    ∃ rs : List Message.Revision, (s.perform op).get? u = some (rs.foldl Message.revise m) := by
  cases op with
  | insert c => exact exists_revisions_insert h c
  | extend cs => exact exists_revisions_insertAll h cs
  | acknowledge v remote => exact exists_revisions_edit h v (.acknowledged remote)
  | confirmDelivery v => exact exists_revisions_edit h v .delivered
  | recordFailure v => exact exists_revisions_edit h v .failed
  | clearUnread v => exact exists_revisions_edit h v .read

/-- So do operations one after another. -/
theorem exists_revisions (h : s.get? u = some m) (ops : List Operation) :
    ∃ rs : List Message.Revision, (s.performAll ops).get? u = some (rs.foldl Message.revise m) := by
  induction ops generalizing s m with
  | nil => exact ⟨[], h⟩
  | cons op ops ih =>
    obtain ⟨rs, hrs⟩ := exists_revisions_perform h op
    obtain ⟨more, hmore⟩ := ih hrs
    exact ⟨rs ++ more, by rw [List.foldl_append]; exact hmore⟩

end

/-! ## Names -/

theorem Coherent.contains_iff {s : Store} (h : s.Coherent) {u : Uri} :
    s.contains u = true ↔ ∃ m ∈ s.toList, m.hasName u = true :=
  h.find?_isSome_iff

/-- A name that finds a message finds one after any further operations. -/
theorem contains_performAll {s : Store} (h : s.Reachable) (ops : List Operation) {u : Uri}
    (hu : s.contains u = true) : (s.performAll ops).contains u = true := by
  obtain ⟨m, hm, hname⟩ := h.coherent.contains_iff.1 hu
  obtain ⟨rs, hrs⟩ := exists_revisions (h.coherent.get?_uri hm) ops
  have hlater := (m.foldl_revise_keepsNames rs).hasName hname
  exact (h.performAll ops).coherent.contains_iff.2 ⟨_, mem_toList_iff.2 ⟨_, hrs⟩, hlater⟩

/-- After any operations on the empty store its names lead to its messages: a look-up finds
something exactly under the names of stored messages, and only what is known under the name, and a
message itself under its own name; and a name that finds a message finds one ever after. -/
theorem names_lead_to_messages (ops : List Operation) :
    let s := empty.performAll ops
    s.Coherent ∧
    (∀ u, s.contains u = true ↔ ∃ m ∈ s.toList, m.hasName u = true) ∧
    (∀ u m, s.find? u = some m → m ∈ s.toList ∧ m.hasName u = true) ∧
    (∀ m ∈ s.toList, s.find? m.uri = some m) ∧
    (∀ more u, s.contains u = true → (s.performAll more).contains u = true) := by
  intro s
  have hs : s.Reachable := Reachable.empty.performAll ops
  refine ⟨hs.coherent, fun u => hs.coherent.contains_iff, fun u m hm => hs.coherent.of_find? hm,
    fun m hm => hs.coherent.find?_uri hm, fun more u hu => contains_performAll hs more hu⟩

/-- Two messages come to have one remote name, which is the own name of a third. -/
def contestedName : List Operation :=
  [.insert { Message.chat ⟨"a"⟩ .incoming .none with remoteUri := some ⟨"r"⟩ },
    .extend [.chat ⟨"b"⟩ .outgoing .none, .chat ⟨"r"⟩ .outgoing .none],
    .acknowledge ⟨"b"⟩ (some ⟨"r"⟩)]

theorem names_lead_to_messages_contestedName :
    let s := empty.performAll contestedName
    s.remoteIndex.get? ⟨"r"⟩ = some ⟨"b"⟩ ∧ (s.find? ⟨"r"⟩).map (·.uri) = some ⟨"r"⟩ ∧
      (s.performAll [.recordFailure ⟨"r"⟩, .clearUnread ⟨"b"⟩]).contains ⟨"r"⟩ = true := by
  obtain ⟨-, -, -, -, hlater⟩ := names_lead_to_messages contestedName
  exact ⟨by decide +kernel, by decide +kernel, hlater _ ⟨"r"⟩ (by decide +kernel)⟩

end Store

end Parley
