/-
Out-of-order and repeated arrival converges. Stores made of the same copies hold messages of the
same essence, and nothing that is derived from a store reads more: the rules of the negotiation
read names, references, directions and the presence of content, the order reads dates and names, the
lifecycle reads kinds and directions. So every status, the order, the replay and the local view come
out the same, whatever the order of arrival.

A remote name that two messages claim is the exception: which of the two a look-up finds depends on
which came last. So statuses are compared message by message.
-/
import Parley.Agreement.Local
import Parley.Lifecycle.Machine
import Parley.Proofs.Negotiation.Rules
import Parley.Proofs.Store.Chronology
import Parley.Proofs.Store.Copies

namespace Parley

open Message (essence)

/-! ## The rules read the essence -/

namespace Rules

variable {ms : List Message} {m : Message}

theorem exists_mem_essence_iff {p : Message → Prop} :
    (∃ a ∈ ms.map essence, p a) ↔ ∃ a ∈ ms, p a.essence := by
  simp

theorem rejected_essence_iff : Rejected (ms.map essence) m.essence ↔ Rejected ms m :=
  exists_mem_essence_iff

theorem retracted_essence_iff : Retracted (ms.map essence) m.essence ↔ Retracted ms m :=
  and_congr Iff.rfl exists_mem_essence_iff

theorem stands_essence_iff : Stands (ms.map essence) m.essence ↔ Stands ms m := by
  unfold Stands
  rw [rejected_essence_iff, retracted_essence_iff]

theorem proposed_essence_iff : Proposed (ms.map essence) m.essence ↔ Proposed ms m :=
  and_congr stands_essence_iff exists_mem_essence_iff

theorem claimed_essence_iff : Claimed (ms.map essence) m.essence ↔ Claimed ms m :=
  and_congr stands_essence_iff exists_mem_essence_iff

/-- The valid accepts are the essences of the valid accepts. -/
theorem validAccept_essence_iff {b : Message} :
    ValidAccept (ms.map essence) b m.essence ↔ ∃ a, ValidAccept ms a m ∧ a.essence = b := by
  unfold ValidAccept
  constructor
  · rintro ⟨hb, href, hcontent, hstands⟩
    obtain ⟨a, ha, rfl⟩ := List.mem_map.1 hb
    exact ⟨a, ⟨ha, href, hcontent, stands_essence_iff.1 hstands⟩, rfl⟩
  · rintro ⟨a, ⟨ha, href, hcontent, hstands⟩, rfl⟩
    exact ⟨List.mem_map_of_mem ha, href, hcontent, stands_essence_iff.2 hstands⟩

theorem accepted_essence_iff : Accepted (ms.map essence) m.essence ↔ Accepted ms m := by
  unfold Accepted
  simp only [validAccept_essence_iff]
  constructor
  · rintro ⟨b, a, ha, -⟩
    exact ⟨a, ha⟩
  · rintro ⟨a, ha⟩
    exact ⟨a.essence, a, ha, rfl⟩

/-- The cancellations are the essences of the cancellations. -/
theorem cancellation_essence_iff {d : Message} :
    Cancellation (ms.map essence) d m.essence ↔ ∃ c, Cancellation ms c m ∧ c.essence = d := by
  have hends (c : Message) :
      (c.essence.RefersTo .proposesToCancel m.essence ∨
        ∃ b, ValidAccept (ms.map essence) b m.essence ∧ c.essence.RefersTo .proposesToCancel b) ↔
      (c.RefersTo .proposesToCancel m ∨
        ∃ a, ValidAccept ms a m ∧ c.RefersTo .proposesToCancel a) := by
    refine or_congr Iff.rfl ⟨?_, ?_⟩
    · rintro ⟨b, hb, hc⟩
      obtain ⟨a, ha, rfl⟩ := validAccept_essence_iff.1 hb
      exact ⟨a, ha, hc⟩
    · rintro ⟨a, ha, hc⟩
      exact ⟨a.essence, validAccept_essence_iff.2 ⟨a, ha, rfl⟩, hc⟩
  unfold Cancellation
  constructor
  · rintro ⟨hd, hstands, hend⟩
    obtain ⟨c, hc, rfl⟩ := List.mem_map.1 hd
    exact ⟨c, ⟨hc, stands_essence_iff.1 hstands, (hends c).1 hend⟩, rfl⟩
  · rintro ⟨c, ⟨hc, hstands, hend⟩, rfl⟩
    exact ⟨List.mem_map_of_mem hc, stands_essence_iff.2 hstands, (hends c).2 hend⟩

theorem cancelled_essence_iff : Cancelled (ms.map essence) m.essence ↔ Cancelled ms m := by
  unfold Cancelled
  rw [accepted_essence_iff]
  simp only [cancellation_essence_iff]
  refine and_congr Iff.rfl ⟨?_, ?_⟩
  · rintro ⟨d, ⟨c, hc, rfl⟩, hd⟩
    exact ⟨c, hc, accepted_essence_iff.1 hd⟩
  · rintro ⟨c, hc, hd⟩
    exact ⟨c.essence, ⟨c, hc, rfl⟩, accepted_essence_iff.2 hd⟩

theorem cancellationPending_essence_iff :
    CancellationPending (ms.map essence) m.essence ↔ CancellationPending ms m := by
  unfold CancellationPending
  rw [accepted_essence_iff, cancelled_essence_iff]
  simp only [cancellation_essence_iff]
  refine and_congr Iff.rfl (and_congr Iff.rfl ⟨?_, ?_⟩)
  · rintro ⟨d, c, hc, -⟩
    exact ⟨c, hc⟩
  · rintro ⟨c, hc⟩
    exact ⟨c.essence, c, hc, rfl⟩

theorem agreed_essence_iff : Agreed (ms.map essence) m.essence ↔ Agreed ms m := by
  unfold Agreed
  rw [accepted_essence_iff, cancelled_essence_iff, cancellationPending_essence_iff]

/-- What a status says of a message by the rules, it says of the essence. -/
theorem Describes.essence {st : MessageStatus} (h : Describes ms m st) :
    Describes (ms.map essence) m.essence st where
  proposed := h.proposed.trans proposed_essence_iff.symm
  claimed := h.claimed.trans claimed_essence_iff.symm
  accepted := h.accepted.trans accepted_essence_iff.symm
  agreed := h.agreed.trans agreed_essence_iff.symm
  rejected := h.rejected.trans rejected_essence_iff.symm
  retracted := h.retracted.trans retracted_essence_iff.symm
  cancelled := h.cancelled.trans cancelled_essence_iff.symm
  cancellationPending := h.cancellationPending.trans cancellationPending_essence_iff.symm

end Rules

/-! ## What is derived from a store reads the essence -/

namespace Store

section

variable {s s' : Store} (hs : s.Coherent) (hs' : s'.Coherent)
  (h : s.toList.map essence = s'.toList.map essence)

include hs hs' h

theorem status_eq_of_essence {m m' : Message} (hm : m.essence = m'.essence) :
    s.backlinks.status m = s'.backlinks.status m' := by
  have hleft := (Backlinks.status_describes hs m).essence
  have hright := (Backlinks.status_describes hs' m').essence
  rw [h, hm] at hleft
  exact hleft.unique hright

omit hs in
/-- Messages of one name in the two stores have the same essence. -/
theorem essence_eq_of_uri_eq {m m' : Message} (hm : m ∈ s.toList) (hm' : m' ∈ s'.toList)
    (huri : m.uri = m'.uri) : m.essence = m'.essence := by
  have hmem : m.essence ∈ s'.toList.map essence := h ▸ List.mem_map_of_mem hm
  obtain ⟨m'', hm'', e⟩ := List.mem_map.1 hmem
  have huri' : m''.uri = m'.uri := (congrArg Message.uri e).trans huri
  rw [← e, hs'.eq_of_uri_eq hm'' hm' huri']

theorem select_eq_of_essence {p : Message → MessageStatus → Bool}
    (hp : ∀ m st, p m.essence st = p m st) : s.backlinks.select p = s'.backlinks.select p := by
  -- both sides select from the same list of essences, with the same statuses
  have hselected (t : Store) (u : Uri) : u ∈ t.backlinks.select p ↔
      ∃ m ∈ t.toList, p m.essence (t.backlinks.status m) = true ∧ m.uri = u := by
    simp only [hp]
    exact Backlinks.mem_select
  have hforth {t t' : Store} (ht : t.Coherent) (ht' : t'.Coherent)
      (e : t.toList.map essence = t'.toList.map essence) {u : Uri}
      (hu : u ∈ t.backlinks.select p) : u ∈ t'.backlinks.select p := by
    obtain ⟨m, hm, hpm, hmu⟩ := (hselected t u).1 hu
    have hmem : m.essence ∈ t'.toList.map essence := e ▸ List.mem_map_of_mem hm
    obtain ⟨m', hm', he⟩ := List.mem_map.1 hmem
    refine (hselected t' u).2 ⟨m', hm', ?_, (congrArg Message.uri he).trans hmu⟩
    rw [he, ← status_eq_of_essence ht ht' e he.symm]
    exact hpm
  exact UriSet.ext_mem fun u => ⟨hforth hs hs' h, hforth hs' hs h.symm⟩

theorem localView_eq_of_essence : s.backlinks.localView = s'.backlinks.localView := by
  have hselect (p : Message → MessageStatus → Bool) (hp : ∀ m st, p m.essence st = p m st) :
      s.backlinks.select p = s'.backlinks.select p := select_eq_of_essence hs hs' h hp
  unfold Backlinks.localView
  rw [hselect (fun _ st => st.agreed) fun _ _ => rfl,
    hselect (fun m st => m.isOpenOffer st && m.references.has .proposes) fun _ _ => rfl,
    hselect (fun _ st => st.cancellationPending) fun _ _ => rfl,
    hselect (fun _ st => st.cancelled) fun _ _ => rfl,
    hselect (fun m st => st.accepted && m.references.has .proposesToCancel) fun _ _ => rfl,
    hselect (fun _ st => st.rejected) fun _ _ => rfl,
    hselect (fun _ st => st.retracted) fun _ _ => rfl]

omit hs hs' in
theorem chronological_essence_eq :
    s.chronological.map essence = s'.chronological.map essence := by
  unfold chronological
  rw [Message.chronological_map essence (fun _ => rfl) fun _ => rfl,
    Message.chronological_map essence (fun _ => rfl) fun _ => rfl, h]

omit hs hs' in
theorem replay_eq_of_essence :
    Lifecycle.ofHistory s.chronological = Lifecycle.ofHistory s'.chronological := by
  have hreplay (t : Store) :
      Lifecycle.ofHistory (t.chronological.map essence) = Lifecycle.ofHistory t.chronological :=
    Lifecycle.ofHistory_map essence (fun _ => rfl) _
  rw [← hreplay s, ← hreplay s', chronological_essence_eq h]

end

/-! ## Convergence -/

/-- Stores made of the same agreeing copies, in any order and with any repetitions, hold of each
copied message what its copies say together, and so the same messages up to what only a first copy
tells; every message has the same status in both, and the order, the replay and the local view are
the same. -/
theorem arrivals_converge {ms ms' : List Message} (hagree : Message.CopiesAgree ms)
    (hmem : ∀ x, x ∈ ms' ↔ x ∈ ms) :
    (∀ u m, (ofList ms').get? u = some m → m.IsMergeOf (Message.copiesOf ms u)) ∧
    (∀ u, ((ofList ms').get? u).isSome = true ↔ ∃ c ∈ ms, c.uri = u) ∧
    (ofList ms').toList.map essence = (ofList ms).toList.map essence ∧
    (∀ m' ∈ (ofList ms').toList, ∀ m ∈ (ofList ms).toList, m'.uri = m.uri →
      (ofList ms').backlinks.status m' = (ofList ms).backlinks.status m) ∧
    (ofList ms').chronological.map essence = (ofList ms).chronological.map essence ∧
    Lifecycle.ofHistory (ofList ms').chronological =
      Lifecycle.ofHistory (ofList ms).chronological ∧
    (ofList ms').backlinks.localView = (ofList ms).backlinks.localView := by
  have hs := (reachable_ofList ms).coherent
  have hs' := (reachable_ofList ms').coherent
  have hgathers := gathers_ofList hagree
  have hgathers' := gathers_ofList (hagree.subset fun x hx => (hmem x).1 hx)
  have hessence := hgathers'.map_essence_eq hgathers hmem
  refine ⟨fun u m hm => ?_, fun u => ?_, hessence, fun m' hm' m hm huri => ?_,
    chronological_essence_eq hessence, replay_eq_of_essence hessence,
    localView_eq_of_essence hs' hs hessence⟩
  · exact (hgathers'.merged u m hm).congr fun x => by
      rw [Message.mem_copiesOf, Message.mem_copiesOf, hmem]
  · rw [hgathers'.get?_isSome_iff]
    simp only [hmem]
  · exact status_eq_of_essence hs' hs hessence
      (essence_eq_of_uri_eq hs hessence hm' hm huri)

/-- A proposal as it is when sending it failed. -/
def failedOffer : Message :=
  { Message.chat ⟨"p"⟩ .outgoing (References.none.insert .proposes ⟨"t"⟩) with
    unread := true
    delivery := ⟨false, false, true⟩ }

/-- The same proposal as its node has it: acknowledged, with a remote name. -/
def acknowledgedOffer : Message :=
  { failedOffer with
    remoteUri := some ⟨"p2"⟩
    unread := false
    systemMessage := true
    delivery := ⟨true, false, false⟩ }

/-- An accept of the proposal by its remote name. -/
def acceptByRemoteName : Message :=
  .chat ⟨"q"⟩ .incoming (References.none.insert .accepts ⟨"p2"⟩)

def offerCopies : List Message :=
  [failedOffer, acknowledgedOffer, acceptByRemoteName]

/-- The accept first, then the copies of the proposal the other way round, and one again. -/
def offerCopiesShuffled : List Message :=
  [acceptByRemoteName, acknowledgedOffer, failedOffer, acceptByRemoteName]

theorem arrivals_converge_offerCopies :
    Message.CopiesAgree offerCopies ∧ (∀ x, x ∈ offerCopiesShuffled ↔ x ∈ offerCopies) ∧
      ofList offerCopiesShuffled ≠ ofList offerCopies ∧
      (ofList offerCopies).backlinks.localView.agreements = .ofList [⟨"p"⟩] ∧
      (ofList offerCopiesShuffled).backlinks.localView =
        (ofList offerCopies).backlinks.localView := by
  have hagree : Message.CopiesAgree offerCopies := by
    intro a ha b hb e
    simp only [offerCopies, List.mem_cons, List.not_mem_nil, or_false] at ha hb
    rcases ha with rfl | rfl | rfl <;> rcases hb with rfl | rfl | rfl <;>
      first
        | exact absurd e (by decide)
        | exact ⟨rfl, rfl, rfl, rfl, by simp [failedOffer, acknowledgedOffer, acceptByRemoteName,
            Message.chat, Message.bare]⟩
  have hmem : ∀ x, x ∈ offerCopiesShuffled ↔ x ∈ offerCopies := by
    intro x
    simp only [offerCopies, offerCopiesShuffled, List.mem_cons, List.not_mem_nil, or_false]
    tauto
  obtain ⟨-, -, -, -, -, -, hview⟩ := arrivals_converge hagree hmem
  exact ⟨hagree, hmem, by decide +kernel, by decide +kernel, hview⟩

end Store

end Parley
