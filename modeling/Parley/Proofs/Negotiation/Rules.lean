/-
The rules of the negotiation, read over all messages at once and without an index, and the status
of a message as what they say.

- A message is rejected when some message rejects it, and retracted when it is outgoing and some
  outgoing message retracts it. It stands when it is neither.
- It is proposed or claimed when it stands and something proposes or claims it.
- It is accepted when a message with content that stands accepts it.
- Its cancellations are the messages that stand and propose to cancel it or such an accept. It is
  cancelled when it is accepted and one of its cancellations is; its cancellation is pending when it
  is accepted, has a cancellation and is not cancelled; it is agreed when it is accepted and
  neither of the two.

The derivation looks up sources three rounds deep and merges them by name. Each round is shown to
list exactly the messages of its rule; what is accepted is then exactly one of agreed, pending and
cancelled.
-/
import Parley.Proofs.Store.Backlinks
import Parley.Store.Status

namespace Parley

attribute [ext] MessageStatus

/-! ## The rules -/

namespace Rules

/-- Some message rejects it. -/
def Rejected (ms : List Message) (m : Message) : Prop :=
  ∃ a ∈ ms, a.RefersTo .rejects m

/-- It is outgoing and some outgoing message retracts it. -/
def Retracted (ms : List Message) (m : Message) : Prop :=
  m.direction = .outgoing ∧ ∃ a ∈ ms, a.direction = .outgoing ∧ a.RefersTo .retracts m

/-- It is neither rejected nor retracted. -/
def Stands (ms : List Message) (m : Message) : Prop :=
  ¬ Rejected ms m ∧ ¬ Retracted ms m

/-- It stands and some message proposes it. -/
def Proposed (ms : List Message) (m : Message) : Prop :=
  Stands ms m ∧ ∃ a ∈ ms, a.RefersTo .proposes m

/-- It stands and some message claims it. -/
def Claimed (ms : List Message) (m : Message) : Prop :=
  Stands ms m ∧ ∃ a ∈ ms, a.RefersTo .claims m

/-- A message with content that stands accepts another one. -/
def ValidAccept (ms : List Message) (a m : Message) : Prop :=
  a ∈ ms ∧ a.RefersTo .accepts m ∧ a.hasContent = true ∧ Stands ms a

/-- It has a valid accept. -/
def Accepted (ms : List Message) (m : Message) : Prop :=
  ∃ a, ValidAccept ms a m

/-- A message that stands proposes to cancel another one or a valid accept of it. -/
def Cancellation (ms : List Message) (c m : Message) : Prop :=
  c ∈ ms ∧ Stands ms c ∧
    (c.RefersTo .proposesToCancel m ∨ ∃ a, ValidAccept ms a m ∧ c.RefersTo .proposesToCancel a)

/-- It is accepted and one of its cancellations is accepted. -/
def Cancelled (ms : List Message) (m : Message) : Prop :=
  Accepted ms m ∧ ∃ c, Cancellation ms c m ∧ Accepted ms c

/-- It is accepted, has a cancellation and is not cancelled. -/
def CancellationPending (ms : List Message) (m : Message) : Prop :=
  Accepted ms m ∧ ¬ Cancelled ms m ∧ ∃ c, Cancellation ms c m

/-- It is accepted, not cancelled, and no cancellation is pending. -/
def Agreed (ms : List Message) (m : Message) : Prop :=
  Accepted ms m ∧ ¬ Cancelled ms m ∧ ¬ CancellationPending ms m

/-- A status says of a message what the rules say. -/
structure Describes (ms : List Message) (m : Message) (st : MessageStatus) : Prop where
  proposed : st.proposed = true ↔ Proposed ms m
  claimed : st.claimed = true ↔ Claimed ms m
  accepted : st.accepted = true ↔ Accepted ms m
  agreed : st.agreed = true ↔ Agreed ms m
  rejected : st.rejected = true ↔ Rejected ms m
  retracted : st.retracted = true ↔ Retracted ms m
  cancelled : st.cancelled = true ↔ Cancelled ms m
  cancellationPending : st.cancellationPending = true ↔ CancellationPending ms m

theorem Describes.unique {ms : List Message} {m : Message} {st st' : MessageStatus}
    (h : Describes ms m st) (h' : Describes ms m st') : st = st' :=
  MessageStatus.ext (Bool.eq_iff_iff.2 (h.proposed.trans h'.proposed.symm))
    (Bool.eq_iff_iff.2 (h.claimed.trans h'.claimed.symm))
    (Bool.eq_iff_iff.2 (h.accepted.trans h'.accepted.symm))
    (Bool.eq_iff_iff.2 (h.agreed.trans h'.agreed.symm))
    (Bool.eq_iff_iff.2 (h.rejected.trans h'.rejected.symm))
    (Bool.eq_iff_iff.2 (h.retracted.trans h'.retracted.symm))
    (Bool.eq_iff_iff.2 (h.cancelled.trans h'.cancelled.symm))
    (Bool.eq_iff_iff.2 (h.cancellationPending.trans h'.cancellationPending.symm))

end Rules

/-- Exactly one of three holds. -/
def ExactlyOne (p q r : Prop) : Prop :=
  (p ∧ ¬ q ∧ ¬ r) ∨ (¬ p ∧ q ∧ ¬ r) ∨ (¬ p ∧ ¬ q ∧ r)

namespace Backlinks

open Rules

/-! ## Merging sources by name -/

/-- Where a name belongs to one message only, merging by name forgets none. -/
theorem mem_addMissing {P : Message → Prop}
    (hP : ∀ a b, P a → P b → a.uri = b.uri → a = b) (more : List Message) :
    ∀ ms : List Message, (∀ a ∈ ms, P a) → (∀ a ∈ more, P a) →
      ∀ c, c ∈ addMissing ms more ↔ c ∈ ms ∨ c ∈ more := by
  induction more with
  | nil => intro ms _ _ c; simp [addMissing]
  | cons d more ih =>
    intro ms hms hmore c
    have hd : P d := hmore d List.mem_cons_self
    have hmore' : ∀ a ∈ more, P a := fun a ha => hmore a (List.mem_cons_of_mem _ ha)
    have hstep : addMissing ms (d :: more) =
        addMissing (if ms.any (·.uri = d.uri) then ms else ms ++ [d]) more := rfl
    rw [hstep]
    split
    · rename_i hany
      rw [ih ms hms hmore', List.mem_cons]
      obtain ⟨b, hb, hbd⟩ := List.any_eq_true.1 hany
      have hdms : d ∈ ms := hP b d (hms b hb) hd (by simpa using hbd) ▸ hb
      constructor
      · rintro (h | h)
        · exact Or.inl h
        · exact Or.inr (Or.inr h)
      · rintro (h | rfl | h)
        · exact Or.inl h
        · exact Or.inl hdms
        · exact Or.inr h
    · have hms' : ∀ a ∈ ms ++ [d], P a := by
        intro a ha
        rcases List.mem_append.1 ha with ha | ha
        · exact hms a ha
        · exact List.mem_singleton.1 ha ▸ hd
      rw [ih _ hms' hmore', List.mem_append, List.mem_singleton, List.mem_cons, or_assoc]

/-- Merging the sources of each message of a list into given ones. -/
theorem mem_foldl_addMissing {P : Message → Prop}
    (hP : ∀ a b, P a → P b → a.uri = b.uri → a = b) {f : Message → List Message}
    (hf : ∀ a, ∀ c ∈ f a, P c) (as : List Message) :
    ∀ ms : List Message, (∀ a ∈ ms, P a) →
      ∀ c, c ∈ as.foldl (fun ms a => addMissing ms (f a)) ms ↔ c ∈ ms ∨ ∃ a ∈ as, c ∈ f a := by
  induction as with
  | nil => intro ms _ c; simp
  | cons a as ih =>
    intro ms hms c
    have hmem := mem_addMissing hP (f a) ms hms (hf a)
    have hms' : ∀ b ∈ addMissing ms (f a), P b := by
      intro b hb
      rcases (hmem b).1 hb with h | h
      · exact hms b h
      · exact hf a b h
    rw [List.foldl_cons, ih _ hms', hmem]
    simp only [List.mem_cons, exists_eq_or_imp, or_assoc]

/-! ## Each round lists the messages of its rule -/

section Rounds

variable {s : Store}

theorem isRejected_iff {m : Message} :
    s.backlinks.isRejected m = true ↔ Rejected s.toList m :=
  hasSource_iff

theorem isRetracted_iff (hs : s.Coherent) {m : Message} :
    s.backlinks.isRetracted m = true ↔ Retracted s.toList m := by
  unfold isRetracted Retracted Message.isOwn
  simp only [Bool.and_eq_true, decide_eq_true_eq, List.any_eq_true, mem_sources_iff hs]
  constructor
  · rintro ⟨hm, a, ⟨ha, hr⟩, hd⟩
    exact ⟨hm, a, ha, hd, hr⟩
  · rintro ⟨hm, a, ha, hd, hr⟩
    exact ⟨hm, a, ⟨ha, hr⟩, hd⟩

theorem isRevoked_eq_false_iff (hs : s.Coherent) {m : Message} :
    s.backlinks.isRevoked m = false ↔ Stands s.toList m := by
  unfold isRevoked Stands
  rw [Bool.or_eq_false_iff, ← isRejected_iff, ← isRetracted_iff hs, Bool.not_eq_true,
    Bool.not_eq_true]

theorem mem_acceptances_iff (hs : s.Coherent) {a m : Message} :
    a ∈ s.backlinks.acceptances m ↔ ValidAccept s.toList a m := by
  unfold acceptances ValidAccept
  rw [List.mem_filter, mem_sources_iff hs, Bool.and_eq_true, Bool.not_eq_true',
    isRevoked_eq_false_iff hs, and_assoc]

theorem acceptances_isEmpty_eq_false_iff (hs : s.Coherent) {m : Message} :
    (s.backlinks.acceptances m).isEmpty = false ↔ Accepted s.toList m := by
  rw [List.isEmpty_eq_false_iff_exists_mem]
  exact exists_congr fun a => mem_acceptances_iff hs

theorem mem_cancellations_iff (hs : s.Coherent) {c m : Message} :
    c ∈ s.backlinks.cancellations m (s.backlinks.acceptances m) ↔
      Cancellation s.toList c m := by
  have hsource : ∀ a, ∀ c ∈ s.backlinks.sources a .proposesToCancel, c ∈ s.toList :=
    fun a c hc => ((mem_sources_iff hs).1 hc).1
  unfold cancellations Cancellation
  rw [List.mem_filter, Bool.not_eq_true', isRevoked_eq_false_iff hs,
    mem_foldl_addMissing (fun a b ha hb => hs.eq_of_uri_eq ha hb) hsource _ _ (hsource m)]
  simp only [mem_sources_iff hs, mem_acceptances_iff hs]
  constructor
  · rintro ⟨⟨hc, hr⟩ | ⟨a, ha, hc, hr⟩, hst⟩
    · exact ⟨hc, hst, Or.inl hr⟩
    · exact ⟨hc, hst, Or.inr ⟨a, ha, hr⟩⟩
  · rintro ⟨hc, hst, hr | ⟨a, ha, hr⟩⟩
    · exact ⟨Or.inl ⟨hc, hr⟩, hst⟩
    · exact ⟨Or.inr ⟨a, ha, hc, hr⟩, hst⟩

/-! ## The status -/

theorem accepted_iff (hs : s.Coherent) {m : Message} :
    (s.backlinks.status m).accepted = true ↔ Accepted s.toList m := by
  have h : (s.backlinks.status m).accepted = !(s.backlinks.acceptances m).isEmpty := rfl
  rw [h, Bool.not_eq_true', acceptances_isEmpty_eq_false_iff hs]

theorem cancelled_iff (hs : s.Coherent) {m : Message} :
    (s.backlinks.status m).cancelled = true ↔ Cancelled s.toList m := by
  have h : (s.backlinks.status m).cancelled = ((s.backlinks.status m).accepted &&
      (s.backlinks.cancellations m (s.backlinks.acceptances m)).any
        fun c => !(s.backlinks.acceptances c).isEmpty) := rfl
  rw [h, Bool.and_eq_true, accepted_iff hs, List.any_eq_true]
  simp only [mem_cancellations_iff hs, Bool.not_eq_true', acceptances_isEmpty_eq_false_iff hs]
  rfl

theorem cancellationPending_iff (hs : s.Coherent) {m : Message} :
    (s.backlinks.status m).cancellationPending = true ↔ CancellationPending s.toList m := by
  have h : (s.backlinks.status m).cancellationPending = ((s.backlinks.status m).accepted &&
      !(s.backlinks.status m).cancelled &&
      !(s.backlinks.cancellations m (s.backlinks.acceptances m)).isEmpty) := rfl
  rw [h, Bool.and_eq_true, Bool.and_eq_true, accepted_iff hs, Bool.not_eq_true', Bool.not_eq_true',
    ← Bool.not_eq_true, cancelled_iff hs, List.isEmpty_eq_false_iff_exists_mem, and_assoc]
  simp only [mem_cancellations_iff hs]
  rfl

theorem agreed_iff (hs : s.Coherent) {m : Message} :
    (s.backlinks.status m).agreed = true ↔ Agreed s.toList m := by
  have h : (s.backlinks.status m).agreed = ((s.backlinks.status m).accepted &&
      !(s.backlinks.status m).cancellationPending && !(s.backlinks.status m).cancelled) := rfl
  rw [h, Bool.and_eq_true, Bool.and_eq_true, accepted_iff hs, Bool.not_eq_true', Bool.not_eq_true',
    ← Bool.not_eq_true, ← Bool.not_eq_true, cancellationPending_iff hs, cancelled_iff hs, and_assoc,
    and_comm (a := ¬ CancellationPending _ _)]
  rfl

/-- The derived status of a message says what the rules say. -/
theorem status_describes (hs : s.Coherent) (m : Message) :
    Describes s.toList m (s.backlinks.status m) := by
  have hstands : (!s.backlinks.isRevoked m) = true ↔ Stands s.toList m := by
    rw [Bool.not_eq_true', isRevoked_eq_false_iff hs]
  have hproposed : (s.backlinks.status m).proposed =
      (!s.backlinks.isRevoked m && s.backlinks.hasSource m .proposes) := rfl
  have hclaimed : (s.backlinks.status m).claimed =
      (!s.backlinks.isRevoked m && s.backlinks.hasSource m .claims) := rfl
  refine ⟨?_, ?_, accepted_iff hs, agreed_iff hs, isRejected_iff, isRetracted_iff hs,
    cancelled_iff hs, cancellationPending_iff hs⟩
  · rw [hproposed, Bool.and_eq_true, hstands, hasSource_iff]
    rfl
  · rw [hclaimed, Bool.and_eq_true, hstands, hasSource_iff]
    rfl

end Rounds

/-- By the rules, an accepted message is agreed, or its cancellation is pending, or it is cancelled,
and never two of these. -/
theorem exactlyOne_of_accepted {ms : List Message} {m : Message} (h : Accepted ms m) :
    ExactlyOne (Agreed ms m) (CancellationPending ms m) (Cancelled ms m) := by
  by_cases hc : Cancelled ms m
  · exact Or.inr (Or.inr ⟨fun ha => ha.2.1 hc, fun hp => hp.2.1 hc, hc⟩)
  · by_cases hp : CancellationPending ms m
    · exact Or.inr (Or.inl ⟨fun ha => ha.2.2 hp, hp, hc⟩)
    · exact Or.inl ⟨⟨h, hc, hp⟩, hp, hc⟩

/-- In every store, the derived status of every message is what the rules say over all stored
messages; an accepted message is exactly one of agreed, pending cancellation and cancelled; and an
identifier has a status exactly if some stored message is known under it, whose status it is. -/
theorem statuses_follow_rules {s : Store} (hs : s.Reachable) :
    (∀ m ∈ s.toList, Describes s.toList m (s.backlinks.status m)) ∧
    (∀ m ∈ s.toList, (s.backlinks.status m).accepted = true →
      ExactlyOne ((s.backlinks.status m).agreed = true)
        ((s.backlinks.status m).cancellationPending = true)
        ((s.backlinks.status m).cancelled = true)) ∧
    (∀ u, (s.backlinks.statusUnder? u).isSome = true ↔ ∃ m ∈ s.toList, m.hasName u = true) ∧
    ∀ u st, s.backlinks.statusUnder? u = some st →
      ∃ m ∈ s.toList, m.hasName u = true ∧ Describes s.toList m st := by
  have hc := hs.coherent
  refine ⟨fun m _ => status_describes hc m, fun m _ ha => ?_, fun u => ?_, fun u st hu => ?_⟩
  · rw [agreed_iff hc, cancellationPending_iff hc, cancelled_iff hc]
    exact exactlyOne_of_accepted ((accepted_iff hc).1 ha)
  · rw [← hc.find?_isSome_iff, statusUnder?, Option.isSome_map]
    rfl
  · obtain ⟨m, hm, rfl⟩ := Option.map_eq_some_iff.1 hu
    obtain ⟨hmem, hname⟩ := hc.of_find? hm
    exact ⟨m, hmem, hname, status_describes hc m⟩

/-- A proposal known under two names. -/
def dealProposal : Message :=
  { Message.chat ⟨"p"⟩ .outgoing (References.none.insert .proposes ⟨"unknown"⟩) with
    remoteUri := some ⟨"p2"⟩ }

/-- A deal that is cancelled: the accept names the proposal by its remote name, the cancellation
names the accept, and the accept of the cancellation names itself too. A message that rejects itself
proposes another cancellation. -/
def cancelledDeal : Store :=
  .ofList
    [dealProposal,
      .chat ⟨"q"⟩ .incoming (References.none.insert .accepts ⟨"p2"⟩),
      .chat ⟨"c"⟩ .incoming (References.none.insert .proposesToCancel ⟨"q"⟩),
      .chat ⟨"d"⟩ .outgoing ((References.none.insert .accepts ⟨"c"⟩).insert .accepts ⟨"d"⟩),
      .chat ⟨"e"⟩ .incoming ((References.none.insert .rejects ⟨"e"⟩).insert .proposesToCancel ⟨"p"⟩)]

theorem statuses_follow_rules_cancelledDeal :
    cancelledDeal.Reachable ∧ dealProposal ∈ cancelledDeal.toList ∧
      Cancelled cancelledDeal.toList dealProposal ∧
      ¬ CancellationPending cancelledDeal.toList dealProposal ∧
      ¬ ∃ m ∈ cancelledDeal.toList, m.hasName ⟨"unknown"⟩ = true := by
  have hs : cancelledDeal.Reachable := Store.reachable_ofList _
  have hp : dealProposal ∈ cancelledDeal.toList := by decide
  obtain ⟨hstatus, -, hknown, -⟩ := statuses_follow_rules hs
  have h := hstatus dealProposal hp
  refine ⟨hs, hp, h.cancelled.1 (by decide), fun hc => ?_, fun hu => ?_⟩
  · exact absurd (h.cancellationPending.2 hc) (by decide)
  · exact absurd ((hknown _).2 hu) (by decide)

end Backlinks

end Parley
