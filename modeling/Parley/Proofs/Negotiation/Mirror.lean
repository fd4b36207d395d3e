/-
The two sides of an exchange agree on what is accepted, cancelled, pending and agreed, as long as
nobody takes back what they agreed by: the accepts of a message, the proposals to cancel it or one
of its accepts, and the accepts of those.

A rule that reads only the references and the content of messages says the same on both sides, since
each side has the same messages and matches a reference with either name. Retraction also asks for
the direction: a side sees what its own messages retract of its own. A retracted accept is no accept
for its author, and still one for the counterpart. What both sides see alike is a message that its
author does not retract, or that is rejected anyway; over such messages the rules carry over one by
one.
-/
import Parley.Proofs.Negotiation.Exchange

namespace Parley

/-! ## The store of the counterpart -/

/-- The store of the counterpart: the same messages, as it has them. -/
def Store.mirror (s : Store) : Store :=
  .ofList (s.toList.map Message.mirror)

namespace Message

@[simp] theorem mirror_mirror (m : Message) : m.mirror.mirror = m := by
  rcases m with ⟨_, _ | _, _, _ | _, _⟩ <;> rfl

theorem mirror_surjective : Function.Surjective mirror :=
  fun m => ⟨m.mirror, mirror_mirror m⟩

theorem mirror_uri_mem_names (m : Message) : m.mirror.uri ∈ m.names := by
  rw [mem_names, ← hasName_mirror, hasName_iff]
  exact Or.inl rfl

/-- References match either name, and so they match on both sides alike. -/
@[simp] theorem refersTo_mirror_iff {a m : Message} {k : ReferenceKind} :
    a.mirror.RefersTo k m.mirror ↔ a.RefersTo k m := by
  simp [RefersTo]

end Message

/-- If all names are distinct, the counterpart has exactly the messages as it has them. -/
theorem Store.mem_mirror_iff {s : Store} (h : (s.toList.flatMap Message.names).Nodup)
    {m : Message} : m.mirror ∈ s.mirror.toList ↔ m ∈ s.toList := by
  have hnodup : ((s.toList.map Message.mirror).map (·.uri)).Nodup := by
    rw [List.map_map, List.Nodup, List.pairwise_map]
    refine (List.nodup_flatMap.1 h).2.imp fun {a b} hab (e : a.mirror.uri = b.mirror.uri) => ?_
    exact hab a.mirror_uri_mem_names (e ▸ b.mirror_uri_mem_names)
  rw [mirror, mem_ofList_iff hnodup, List.mem_map]
  constructor
  · rintro ⟨x, hx, e⟩
    rw [← m.mirror_mirror, ← e, x.mirror_mirror]
    exact hx
  · exact fun hm => ⟨m, hm, rfl⟩

/-! ## The rules on both sides -/

namespace Rules

/-- The author of a message retracts it. -/
def RetractedByAuthor (ms : List Message) (m : Message) : Prop :=
  ∃ a ∈ ms, a.direction = m.direction ∧ a.RefersTo .retracts m

/-- The author of a message retracts it, and nobody rejects it. -/
def TakenBack (ms : List Message) (m : Message) : Prop :=
  RetractedByAuthor ms m ∧ ¬ Rejected ms m

/-- No accept of a message with content is taken back. -/
def AcceptsKept (ms : List Message) (m : Message) : Prop :=
  ∀ a ∈ ms, a.RefersTo .accepts m → a.hasContent = true → ¬ TakenBack ms a

/-- A message proposes to cancel another one or a valid accept of it. -/
def ProposesEnd (ms : List Message) (c m : Message) : Prop :=
  c ∈ ms ∧ (c.RefersTo .proposesToCancel m ∨
    ∃ a, ValidAccept ms a m ∧ c.RefersTo .proposesToCancel a)

/-- Nobody takes back an accept of the message, a proposal to cancel it or an accept of such. -/
structure NothingTakenBack (ms : List Message) (m : Message) : Prop where
  accepts : AcceptsKept ms m
  cancellations : ∀ c, ProposesEnd ms c m → ¬ TakenBack ms c
  cancellationAccepts : ∀ c, ProposesEnd ms c m → AcceptsKept ms c

theorem retracted_iff_byAuthor {ms : List Message} {m : Message} :
    Retracted ms m ↔ m.direction = .outgoing ∧ RetractedByAuthor ms m := by
  unfold Retracted RetractedByAuthor
  refine and_congr_right fun hd => ?_
  rw [hd]

/-- Where nobody retracts anything, nothing is taken back. -/
theorem NothingTakenBack.of_no_retraction {ms : List Message}
    (h : ∀ a ∈ ms, a.references.get .retracts = ∅) (m : Message) : NothingTakenBack ms m := by
  have hno (x : Message) : ¬ TakenBack ms x := by
    rintro ⟨⟨a, ha, -, u, hu, -⟩, -⟩
    rw [h a ha] at hu
    exact UriSet.not_mem_empty u hu
  exact ⟨fun a _ _ _ => hno a, fun c _ => hno c, fun _ _ a _ _ _ => hno a⟩

section

variable {ms ms' : List Message} (hms : ∀ x : Message, x.mirror ∈ ms' ↔ x ∈ ms)

include hms

theorem rejected_mirror_iff {m : Message} : Rejected ms' m.mirror ↔ Rejected ms m := by
  unfold Rejected
  rw [Message.mirror_surjective.exists]
  simp only [hms, Message.refersTo_mirror_iff]

/-- A side sees only what is retracted of its own messages. -/
theorem retracted_mirror_iff {m : Message} :
    Retracted ms' m.mirror ↔ m.direction = .incoming ∧ RetractedByAuthor ms m := by
  have hflip (d : Direction) : d.flip = .outgoing ↔ d = .incoming := by
    cases d <;> decide
  unfold Retracted RetractedByAuthor
  rw [Message.mirror_surjective.exists]
  simp only [hms, Message.refersTo_mirror_iff, Message.direction_mirror, hflip]
  refine and_congr_right fun hd => ?_
  rw [hd]

/-- A message that nobody takes back stands on both sides or on none. -/
theorem stands_mirror_iff {m : Message} (h : ¬ TakenBack ms m) :
    Stands ms' m.mirror ↔ Stands ms m := by
  unfold Stands
  rw [rejected_mirror_iff hms, retracted_mirror_iff hms, retracted_iff_byAuthor]
  -- the sides differ only over a retraction, and here a retracted message is rejected on both
  refine and_congr_right fun hrej => ?_
  have hnot : ¬ RetractedByAuthor ms m := fun hr => h ⟨hr, hrej⟩
  exact iff_of_true (fun hr => hnot hr.2) fun hr => hnot hr.2

theorem validAccept_mirror_iff {a m : Message} (h : AcceptsKept ms m) :
    ValidAccept ms' a.mirror m.mirror ↔ ValidAccept ms a m := by
  unfold ValidAccept
  rw [hms, Message.refersTo_mirror_iff, Message.hasContent_mirror]
  refine and_congr_right fun ha => and_congr_right fun hr => and_congr_right fun hc => ?_
  exact stands_mirror_iff hms (h a ha hr hc)

theorem accepted_mirror_iff {m : Message} (h : AcceptsKept ms m) :
    Accepted ms' m.mirror ↔ Accepted ms m := by
  unfold Accepted
  rw [Message.mirror_surjective.exists]
  exact exists_congr fun a => validAccept_mirror_iff hms h

theorem cancellation_mirror_iff {m c : Message} (h : NothingTakenBack ms m) :
    Cancellation ms' c.mirror m.mirror ↔ Cancellation ms c m := by
  have hends : (c.mirror.RefersTo .proposesToCancel m.mirror ∨
      ∃ a, ValidAccept ms' a m.mirror ∧ c.mirror.RefersTo .proposesToCancel a) ↔
        (c.RefersTo .proposesToCancel m ∨
          ∃ a, ValidAccept ms a m ∧ c.RefersTo .proposesToCancel a) := by
    rw [Message.mirror_surjective.exists]
    simp only [Message.refersTo_mirror_iff, validAccept_mirror_iff hms h.accepts]
  unfold Cancellation
  rw [hms, hends]
  refine and_congr_right fun hc => and_congr_left fun hend => stands_mirror_iff hms ?_
  exact h.cancellations c ⟨hc, hend⟩

theorem cancelled_mirror_iff {m : Message} (h : NothingTakenBack ms m) :
    Cancelled ms' m.mirror ↔ Cancelled ms m := by
  unfold Cancelled
  rw [accepted_mirror_iff hms h.accepts, Message.mirror_surjective.exists]
  simp only [cancellation_mirror_iff hms h]
  refine and_congr_right fun _ => exists_congr fun c => and_congr_right fun hc => ?_
  exact accepted_mirror_iff hms (h.cancellationAccepts c ⟨hc.1, hc.2.2⟩)

theorem cancellationPending_mirror_iff {m : Message} (h : NothingTakenBack ms m) :
    CancellationPending ms' m.mirror ↔ CancellationPending ms m := by
  unfold CancellationPending
  rw [accepted_mirror_iff hms h.accepts, cancelled_mirror_iff hms h,
    Message.mirror_surjective.exists]
  simp only [cancellation_mirror_iff hms h]

theorem agreed_mirror_iff {m : Message} (h : NothingTakenBack ms m) :
    Agreed ms' m.mirror ↔ Agreed ms m := by
  unfold Agreed
  rw [accepted_mirror_iff hms h.accepts, cancelled_mirror_iff hms h,
    cancellationPending_mirror_iff hms h]

end

end Rules

/-! ## The statuses on both sides -/

open Rules

/-- If all names are distinct, the two sides agree on whether a message is accepted, agreed,
cancelled and pending cancellation, unless somebody takes back what it was agreed by. -/
theorem both_sides_agree {s : Store} (hs : s.Reachable)
    (hnames : (s.toList.flatMap Message.names).Nodup) {m : Message}
    (hkept : NothingTakenBack s.toList m) :
    (s.mirror.backlinks.status m.mirror).accepted = (s.backlinks.status m).accepted ∧
      (s.mirror.backlinks.status m.mirror).agreed = (s.backlinks.status m).agreed ∧
      (s.mirror.backlinks.status m.mirror).cancelled = (s.backlinks.status m).cancelled ∧
      (s.mirror.backlinks.status m.mirror).cancellationPending =
        (s.backlinks.status m).cancellationPending := by
  have hms (x : Message) : x.mirror ∈ s.mirror.toList ↔ x ∈ s.toList := Store.mem_mirror_iff hnames
  have h := Backlinks.status_describes hs.coherent m
  have hs' : s.mirror.Reachable := Store.reachable_ofList _
  have h' := Backlinks.status_describes hs'.coherent m.mirror
  refine ⟨Bool.eq_iff_iff.2 ?_, Bool.eq_iff_iff.2 ?_, Bool.eq_iff_iff.2 ?_, Bool.eq_iff_iff.2 ?_⟩
  · exact h'.accepted.trans ((accepted_mirror_iff hms hkept.accepts).trans h.accepted.symm)
  · exact h'.agreed.trans ((agreed_mirror_iff hms hkept).trans h.agreed.symm)
  · exact h'.cancelled.trans ((cancelled_mirror_iff hms hkept).trans h.cancelled.symm)
  · exact h'.cancellationPending.trans
      ((cancellationPending_mirror_iff hms hkept).trans h.cancellationPending.symm)

theorem both_sides_agree_deal :
    NothingTakenBack (Store.ofList deal).toList offer ∧
      ((Store.ofList deal).backlinks.status offer).accepted = true ∧
      ((Store.ofList deal).mirror.backlinks.status offer.mirror).accepted = true := by
  have hkept : NothingTakenBack (Store.ofList deal).toList offer := .of_no_retraction (by decide) _
  have haccepted : ((Store.ofList deal).backlinks.status offer).accepted = true := by decide
  obtain ⟨h, -⟩ := both_sides_agree (Store.reachable_ofList deal) (by decide) hkept
  exact ⟨hkept, haccepted, h.trans haccepted⟩

/-- The own side retracts its accept. -/
def withdrawnDeal : List Message :=
  exchanged "4" .outgoing (References.none.insert .retracts ⟨"own/event/3"⟩) :: deal

theorem withdrawnDeal_checked : OwnSideChecked withdrawnDeal := by
  refine .sent (c := connectedWith deal) deal_checked (holds_ofList (by decide)) ?_
  exact ⟨⟨"own", "owner", 1, 3⟩, .negotiate .retract ⟨"own/event/3"⟩, ⟨"4", 0⟩, by decide,
    by decide, Or.inl rfl, rfl, rfl, rfl⟩

/-- A retracted accept is none for its author and still one for the counterpart. -/
theorem retracted_accept_divides_sides :
    OwnSideChecked withdrawnDeal ∧ OwnSideChecked (withdrawnDeal.map Message.mirror) ∧
      (∀ m ∈ withdrawnDeal, m.remoteUri.isSome = true) ∧
      (withdrawnDeal.flatMap Message.names).Nodup ∧
      (Store.ofList withdrawnDeal).Holds withdrawnDeal ∧
      (∀ m ∈ withdrawnDeal, m ∈ (Store.ofList withdrawnDeal).toList) ∧
      offer ∈ withdrawnDeal ∧
      ((Store.ofList withdrawnDeal).backlinks.status offer).accepted = false ∧
      ((Store.ofList withdrawnDeal).backlinks.status offer).agreed = false ∧
      ((Store.ofList withdrawnDeal).mirror.backlinks.status offer.mirror).accepted = true ∧
      ((Store.ofList withdrawnDeal).mirror.backlinks.status offer.mirror).agreed = true :=
  ⟨withdrawnDeal_checked, .received deal_mirror_checked rfl, by decide, by decide,
    holds_ofList (by decide), by decide, by decide, by decide, by decide, by decide, by decide⟩

end Parley
