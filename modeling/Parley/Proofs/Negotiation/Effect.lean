/-
What a permitted action does to the message it is taken on. The new message has one reference, and
nothing refers to it, so it stands. A proposal, a claim, a rejection and a retraction take effect by
themselves. An accept is the only valid one, since an accepted message may not be accepted again; so
the message is agreed unless somebody proposed to cancel it before. A proposal to cancel is the only
cancellation, since it is permitted on an agreed message only, and nothing accepts it yet.
-/
import Parley.Message.Dispatch
import Parley.Proofs.Negotiation.Addition

namespace Parley

open Rules

/-- What an action makes of the status of its message, over the messages after it. -/
def Action.Effect (ms : List Message) (m : Message) (before after : MessageStatus) : Action → Prop
  | .propose => after = { before with proposed := true }
  | .claim => after = { before with claimed := true }
  | .accept =>
    after.accepted = true ∧
      (after.agreed = true ↔ ¬ ∃ c ∈ ms, Stands ms c ∧ c.RefersTo .proposesToCancel m) ∧
      after = { before with
        accepted := true
        agreed := after.agreed
        cancelled := after.cancelled
        cancellationPending := after.cancellationPending }
  | .reject => after = { before with rejected := true, proposed := false, claimed := false }
  | .retract => after = { before with retracted := true, proposed := false, claimed := false }
  | .proposeToCancel =>
    after = { before with agreed := false, cancelled := false, cancellationPending := true }

/-! ## What each kind of message leaves as it is -/

namespace Rules

variable {ms ms' : List Message} {n m : Message} {st st' : MessageStatus}

/-- By the rules, a message that is not accepted is neither agreed nor being cancelled. -/
theorem Describes.of_not_accepted (h : Describes ms m st) (hacc : ¬ Accepted ms m) :
    st.accepted = false ∧ st.agreed = false ∧ st.cancelled = false ∧
      st.cancellationPending = false := by
  refine ⟨?_, ?_, ?_, ?_⟩ <;> rw [← Bool.not_eq_true]
  · exact fun e => hacc (h.accepted.1 e)
  · exact fun e => hacc (h.agreed.1 e).1
  · exact fun e => hacc (h.cancelled.1 e).1
  · exact fun e => hacc (h.cancellationPending.1 e).1

theorem Describes.of_not_stands (h : Describes ms m st) (hst : ¬ Stands ms m) :
    st.proposed = false ∧ st.claimed = false := by
  constructor <;> rw [← Bool.not_eq_true]
  · exact fun e => hst (h.proposed.1 e).1
  · exact fun e => hst (h.claimed.1 e).1

/-- A message that accepts nothing, and revokes one that was not accepted, only revokes it. -/
theorem Describes.revoked (hms : ∀ x, x ∈ ms' ↔ x = n ∨ x ∈ ms) (h : Describes ms m st)
    (h' : Describes ms' m st') (hn : ¬ n.RefersTo .accepts m) (hacc : ¬ Accepted ms m)
    (hst : ¬ Stands ms' m) :
    st' = { st with
      rejected := st'.rejected
      retracted := st'.retracted
      proposed := false
      claimed := false } := by
  obtain ⟨h1, h2, h3, h4⟩ := h.of_not_accepted hacc
  obtain ⟨h1', h2', h3', h4'⟩ := h'.of_not_accepted fun ha => hacc (ha.of_add hms hn)
  obtain ⟨hp, hc⟩ := h'.of_not_stands hst
  exact MessageStatus.ext hp hc (h1'.trans h1.symm) (h2'.trans h2.symm) rfl rfl (h3'.trans h3.symm)
    (h4'.trans h4.symm)

/-- A message that revokes nothing and does not propose or claim another one changes at most how far
the other one is agreed. -/
theorem Describes.agreeing (hms : ∀ x, x ∈ ms' ↔ x = n ∨ x ∈ ms) (h : Describes ms m st)
    (h' : Describes ms' m st') (hrej : ¬ n.RefersTo .rejects m) (hret : ¬ n.RefersTo .retracts m)
    (hp : ¬ n.RefersTo .proposes m) (hc : ¬ n.RefersTo .claims m) :
    st' = { st with
      accepted := st'.accepted, agreed := st'.agreed, cancelled := st'.cancelled
      cancellationPending := st'.cancellationPending } := by
  have hst : Stands ms' m ↔ Stands ms m := stands_add_iff hms hrej hret
  have hsource (k : ReferenceKind) (hk : ¬ n.RefersTo k m) :
      (∃ a ∈ ms', a.RefersTo k m) ↔ ∃ a ∈ ms, a.RefersTo k m := by
    simp only [hms, or_and_right, exists_or, exists_eq_left, hk, false_or]
  have hproposed : Proposed ms' m ↔ Proposed ms m := and_congr hst (hsource _ hp)
  have hclaimed : Claimed ms' m ↔ Claimed ms m := and_congr hst (hsource _ hc)
  have hrejected : Rejected ms' m ↔ Rejected ms m := hsource _ hrej
  have hretracted : Retracted ms' m ↔ Retracted ms m := by
    rw [retracted_add_iff hms]
    exact or_iff_right fun hr => hret hr.2.2
  exact MessageStatus.ext
    (Bool.eq_iff_iff.2 (h'.proposed.trans (hproposed.trans h.proposed.symm)))
    (Bool.eq_iff_iff.2 (h'.claimed.trans (hclaimed.trans h.claimed.symm))) rfl rfl
    (Bool.eq_iff_iff.2 (h'.rejected.trans (hrejected.trans h.rejected.symm)))
    (Bool.eq_iff_iff.2 (h'.retracted.trans (hretracted.trans h.retracted.symm))) rfl rfl

theorem Describes.isDecided_eq_false_iff (h : Describes ms m st) :
    st.isDecided = false ↔ Stands ms m ∧ ¬ Accepted ms m := by
  unfold MessageStatus.isDecided Stands
  simp only [Bool.or_eq_false_iff]
  constructor
  · rintro ⟨⟨⟨⟨⟨hacc, -⟩, -⟩, -⟩, hret⟩, hrej⟩
    rw [← Bool.not_eq_true] at hacc hret hrej
    exact ⟨⟨fun e => hrej (h.rejected.2 e), fun e => hret (h.retracted.2 e)⟩,
      fun e => hacc (h.accepted.2 e)⟩
  · rintro ⟨⟨hrej, hret⟩, hacc⟩
    obtain ⟨h1, h2, h3, h4⟩ := h.of_not_accepted hacc
    refine ⟨⟨⟨⟨⟨h1, h2⟩, h3⟩, h4⟩, ?_⟩, ?_⟩ <;> rw [← Bool.not_eq_true]
    · exact fun e => hret (h.retracted.1 e)
    · exact fun e => hrej (h.rejected.1 e)

/-- An accepted message is agreed exactly if it has no cancellation. -/
theorem agreed_iff_no_cancellation (h : Accepted ms m) :
    Agreed ms m ↔ ¬ ∃ c, Cancellation ms c m := by
  constructor
  · rintro ⟨-, hcancelled, hpending⟩ hc
    exact hpending ⟨h, hcancelled, hc⟩
  · intro hno
    exact ⟨h, fun hcancelled => hno (hcancelled.2.imp fun _ hc => hc.1), fun hp => hno hp.2.2⟩

end Rules

/-! ## What each action does -/

/-- What is accepted, rejected or retracted was undecided. -/
theorem Action.undecided_of_qualifies {a : Action} {m : Message} {st : MessageStatus}
    (ha : a = .accept ∨ a = .reject ∨ a = .retract) (hq : a.qualifies m st = true) :
    st.isDecided = false := by
  rcases ha with rfl | rfl | rfl
  · simp only [qualifies, Bool.and_eq_true, Bool.not_eq_true'] at hq
    exact hq.2
  · simp only [qualifies, Bool.and_eq_true, Bool.not_eq_true'] at hq
    exact hq.2
  · simp only [qualifies, Bool.and_eq_true, Bool.not_eq_true'] at hq
    exact hq.2

namespace Message.Takes

variable {s : Store} {ms' : List Message} {n m : Message} {r : Uri} {a : Action}
  {st st' : MessageStatus}

theorem not_refersTo_under (hn : n.Takes a r s) (k : ReferenceKind) (hk : k ≠ a.reference)
    (x : Message) : ¬ n.RefersTo k x :=
  fun hx => hk (hn.refersTo_iff.1 hx).1

theorem refersTo_target (hn : n.Takes a r s) (hr : r.isBlank = false) (hm : m.hasName r = true) :
    n.RefersTo a.reference m :=
  hn.refersTo_iff.2 ⟨rfl, hr, hm⟩

section

variable (hms : ∀ x, x ∈ ms' ↔ x = n ∨ x ∈ s.toList) (hr : r.isBlank = false)
  (hm : m.hasName r = true) (h : Describes s.toList m st) (h' : Describes ms' m st')

include hms hr hm h h'

theorem offer_effect (hn : n.Takes a r s) (ha : a = .propose ∨ a = .claim)
    (hq : a.qualifies m st = true) : a.Effect ms' m st st' := by
  obtain ⟨hst, hp, hc⟩ := (hn.onlyOffers (Or.inr ha)).describes hms h h'
  have href := hn.refersTo_target hr hm
  have hnot : (st.retracted || st.rejected) = false := by
    rcases ha with rfl | rfl
    · simp only [Action.qualifies, Bool.and_eq_true, Bool.not_eq_true'] at hq
      exact hq.2
    · simp only [Action.qualifies, Bool.and_eq_true, Bool.not_eq_true'] at hq
      exact hq.1.2
  have hstands : Stands s.toList m := by
    rw [Bool.or_eq_false_iff, ← Bool.not_eq_true, ← Bool.not_eq_true, h.retracted,
      h.rejected] at hnot
    exact ⟨hnot.2, hnot.1⟩
  rcases ha with rfl | rfl
  · have hno := hn.not_refersTo_under .claims (by decide) m
    have hproposed : st'.proposed = true := hp.2 (Or.inl ⟨hstands, href⟩)
    have hclaimed : st'.claimed = st.claimed :=
      Bool.eq_iff_iff.2 (hc.trans (or_iff_right fun hx => hno hx.2))
    rw [hproposed, hclaimed] at hst
    exact hst
  · have hno := hn.not_refersTo_under .proposes (by decide) m
    have hproposed : st'.proposed = st.proposed :=
      Bool.eq_iff_iff.2 (hp.trans (or_iff_right fun hx => hno hx.2))
    have hclaimed : st'.claimed = true := hc.2 (Or.inl ⟨hstands, href⟩)
    rw [hproposed, hclaimed] at hst
    exact hst

theorem accept_effect (hn : n.Takes .accept r s) (hq : Action.accept.qualifies m st = true) :
    Action.accept.Effect ms' m st st' := by
  have hundecided := Action.undecided_of_qualifies (Or.inl rfl) hq
  obtain ⟨-, hacc⟩ := h.isDecided_eq_false_iff.1 hundecided
  have hrej := hn.not_refersTo_under .rejects (by decide)
  have hret := hn.not_refersTo_under .retracts (by decide)
  have hst (x : Message) : Stands ms' x ↔ Stands s.toList x := stands_add_iff hms (hrej x) (hret x)
  -- there was no valid accept before, so the new one is the only one
  have hvalid (b : Message) : ValidAccept ms' b m ↔ b = n := by
    rw [validAccept_add_iff hms hst]
    constructor
    · rintro (⟨rfl, -⟩ | hb)
      · rfl
      · exact absurd ⟨b, hb⟩ hacc
    · rintro rfl
      exact Or.inl ⟨rfl, hn.refersTo_target hr hm, hn.hasContent, (hst b).1 (hn.stands hms)⟩
  have haccepted : Accepted ms' m := ⟨n, (hvalid n).2 rfl⟩
  have hcancel : (∃ c, Cancellation ms' c m) ↔
      ∃ c ∈ ms', Stands ms' c ∧ c.RefersTo .proposesToCancel m := by
    constructor
    · rintro ⟨c, hc, hs, href | ⟨b, hb, href⟩⟩
      · exact ⟨c, hc, hs, href⟩
      · rw [(hvalid b).1 hb] at href
        exact absurd href (hn.not_refersTo hms hc _)
    · rintro ⟨c, hc, hs, href⟩
      exact ⟨c, hc, hs, Or.inl href⟩
  have hacc' : st'.accepted = true := h'.accepted.2 haccepted
  refine ⟨hacc', ?_, ?_⟩
  · rw [h'.agreed, agreed_iff_no_cancellation haccepted, hcancel]
  · have hrest := h.agreeing hms h' (hrej m) (hret m) (hn.not_refersTo_under .proposes (by decide) m)
      (hn.not_refersTo_under .claims (by decide) m)
    rw [hacc'] at hrest
    exact hrest

theorem reject_effect (hn : n.Takes .reject r s) (hq : Action.reject.qualifies m st = true) :
    Action.reject.Effect ms' m st st' := by
  have hundecided := Action.undecided_of_qualifies (Or.inr (Or.inl rfl)) hq
  obtain ⟨-, hacc⟩ := h.isDecided_eq_false_iff.1 hundecided
  have hrejected : Rejected ms' m := (rejected_add_iff hms).2 (Or.inl (hn.refersTo_target hr hm))
  have hretracted : Retracted ms' m ↔ Retracted s.toList m := by
    rw [retracted_add_iff hms]
    exact or_iff_right fun hx => hn.not_refersTo_under .retracts (by decide) m hx.2.2
  have hrest := h.revoked hms h' (hn.not_refersTo_under .accepts (by decide) m) hacc
    fun hs => hs.1 hrejected
  rw [h'.rejected.2 hrejected,
    Bool.eq_iff_iff.2 (h'.retracted.trans (hretracted.trans h.retracted.symm))] at hrest
  exact hrest

theorem retract_effect (hn : n.Takes .retract r s) (hq : Action.retract.qualifies m st = true) :
    Action.retract.Effect ms' m st st' := by
  have hundecided := Action.undecided_of_qualifies (Or.inr (Or.inr rfl)) hq
  obtain ⟨-, hacc⟩ := h.isDecided_eq_false_iff.1 hundecided
  have hown : m.direction = .outgoing := by
    simp only [Action.qualifies, Message.isOwn, Bool.and_eq_true, decide_eq_true_eq] at hq
    exact hq.1
  have hretracted : Retracted ms' m :=
    (retracted_add_iff hms).2 (Or.inl ⟨hown, hn.direction, hn.refersTo_target hr hm⟩)
  have hrejected : Rejected ms' m ↔ Rejected s.toList m := by
    rw [rejected_add_iff hms]
    exact or_iff_right fun hx => hn.not_refersTo_under .rejects (by decide) m hx
  have hrest := h.revoked hms h' (hn.not_refersTo_under .accepts (by decide) m) hacc
    fun hs => hs.2 hretracted
  rw [h'.retracted.2 hretracted,
    Bool.eq_iff_iff.2 (h'.rejected.trans (hrejected.trans h.rejected.symm))] at hrest
  exact hrest

theorem cancel_effect (hn : n.Takes .proposeToCancel r s)
    (hq : Action.proposeToCancel.qualifies m st = true) :
    Action.proposeToCancel.Effect ms' m st st' := by
  simp only [Action.qualifies, Message.admitsCancellation, Bool.and_eq_true,
    Bool.not_eq_true'] at hq
  obtain ⟨⟨⟨-, hwas⟩, hnotc⟩, hnotp⟩ := hq
  have hacc : Accepted s.toList m := h.accepted.1 hwas
  have hrej := hn.not_refersTo_under .rejects (by decide)
  have hret := hn.not_refersTo_under .retracts (by decide)
  have hst (x : Message) : Stands ms' x ↔ Stands s.toList x := stands_add_iff hms (hrej x) (hret x)
  have hvalid (b x : Message) : ValidAccept ms' b x ↔ ValidAccept s.toList b x := by
    rw [validAccept_add_iff hms hst]
    exact or_iff_right fun hb => hn.not_refersTo_under .accepts (by decide) x hb.2.1
  have hcancel : Cancellation ms' n m :=
    ⟨(hms n).2 (Or.inl rfl), hn.stands hms, Or.inl (hn.refersTo_target hr hm)⟩
  -- a message that was accepted and neither cancelled nor pending had no cancellation
  have hnone (c : Message) (hc : Cancellation s.toList c m) : False := by
    rw [← Bool.not_eq_true] at hnotc hnotp
    have hcancelled : ¬ Cancelled s.toList m := fun e => hnotc (h.cancelled.2 e)
    exact hnotp (h.cancellationPending.2 ⟨hacc, hcancelled, c, hc⟩)
  have hcancelled : ¬ Cancelled ms' m := by
    rintro ⟨-, c, hc, b, hb, href, -⟩
    rcases (cancellation_add_iff hms hst hvalid).1 hc with ⟨rfl, -⟩ | hc
    · exact hn.not_refersTo hms hb _ href
    · exact hnone c hc
  have hacc' : Accepted ms' m := hacc.imp fun b hb => (hvalid b m).2 hb
  have hpending : CancellationPending ms' m := ⟨hacc', hcancelled, n, hcancel⟩
  have hrest := h.agreeing hms h' (hrej m) (hret m) (hn.not_refersTo_under .proposes (by decide) m)
    (hn.not_refersTo_under .claims (by decide) m)
  have hagreed : st'.agreed = false := by
    rw [← Bool.not_eq_true, h'.agreed]
    exact fun e => e.2.2 hpending
  have hnot : st'.cancelled = false := by
    rw [← Bool.not_eq_true, h'.cancelled]
    exact hcancelled
  have haccepted : st'.accepted = st.accepted := (h'.accepted.2 hacc').trans hwas.symm
  rw [haccepted, h'.cancellationPending.2 hpending, hagreed, hnot] at hrest
  exact hrest

theorem effect (hn : n.Takes a r s) (hq : a.qualifies m st = true) : a.Effect ms' m st st' := by
  cases a with
  | propose => exact hn.offer_effect hms hr hm h h' (Or.inl rfl) hq
  | claim => exact hn.offer_effect hms hr hm h h' (Or.inr rfl) hq
  | accept => exact hn.accept_effect hms hr hm h h' hq
  | reject => exact hn.reject_effect hms hr hm h h' hq
  | retract => exact hn.retract_effect hms hr hm h h' hq
  | proposeToCancel => exact hn.cancel_effect hms hr hm h h' hq

end

end Message.Takes

/-- An action other than an offer decides about its message. -/
theorem Action.Effect.isDecided {a : Action} {ms : List Message} {m : Message}
    {before after : MessageStatus} (h : a.Effect ms m before after) (hp : a ≠ .propose)
    (hc : a ≠ .claim) : after.isDecided = true := by
  cases a with
  | propose => exact absurd rfl hp
  | claim => exact absurd rfl hc
  | accept => simp [MessageStatus.isDecided, h.1]
  | reject =>
    obtain rfl := h
    simp [MessageStatus.isDecided]
  | retract =>
    obtain rfl := h
    simp [MessageStatus.isDecided]
  | proposeToCancel =>
    obtain rfl := h
    simp [MessageStatus.isDecided]

namespace Action

/-- Every permitted action has exactly its effect on its message, and an action other than an offer
cannot be followed by itself or by an accept, a rejection or a retraction of the same message. -/
theorem permitted_takes_effect {s : Store} (hs : s.Reachable) {m : Message} {r : Uri}
    (hfind : s.find? r = some m) (hr : r.isBlank = false) {a : Action}
    (ha : a.isPermitted m (s.backlinks.status m) .connected = true) (e : Envelope) (stamp : Stamp)
    (hfresh : s.Unused (e.eventUri stamp.id)) :
    let s' := (s.insert (e.compose (.negotiate a r) stamp).message).2
    s'.find? r = some m ∧
      a.Effect s'.toList m (s.backlinks.status m) (s'.backlinks.status m) ∧
      (a ≠ .propose → a ≠ .claim → ∀ b ∈ [a, .accept, .reject, .retract], ∀ state,
        b.isPermitted m (s'.backlinks.status m) state = false) := by
  intro s'
  set n := (e.compose (.negotiate a r) stamp).message
  obtain ⟨hmem, hname⟩ := hs.coherent.of_find? hfind
  have hn : n.Takes a r s := ⟨rfl, rfl, rfl, rfl, hfresh, m, hmem, hname⟩
  have hunused : s.get? n.uri = none := hfresh.get? hs.coherent
  have hadd : s' = s.add n := congrArg Prod.snd (Store.insert_of_unused hunused)
  have hms (x : Message) : x ∈ s'.toList ↔ x = n ∨ x ∈ s.toList := by
    rw [hadd]
    exact Store.mem_add_iff hunused
  have h := Backlinks.status_describes hs.coherent m
  have hs' : s'.Coherent := (hs.insert n).coherent
  have h' := Backlinks.status_describes hs' m
  have hq : a.qualifies m (s.backlinks.status m) = true := by
    simp only [isPermitted, Bool.and_eq_true] at ha
    exact ha.2
  have heffect := hn.effect hms hr hname h h' hq
  refine ⟨?_, heffect, fun hp hc b hb state => ?_⟩
  · rw [hadd, hs.coherent.find?_add hunused hn.hasName_eq_false, hfind]
  · have hdecided := heffect.isDecided hp hc
    have hagain : b.qualifies m (s'.backlinks.status m) = false := by
      simp only [List.mem_cons, List.not_mem_nil, or_false] at hb
      rcases hb with rfl | rfl | rfl | rfl
      · exact not_qualifies_of_taken hp hc ((hms n).2 (Or.inl rfl)) (hn.refersTo_target hr hname)
          rfl rfl (hn.stands hms) h'
      · simp [qualifies, hdecided]
      · simp [qualifies, hdecided]
      · simp [qualifies, hdecided]
    simp [isPermitted, hagain]

def doubtedProposal : Message :=
  { Message.chat ⟨"p"⟩ .incoming (References.none.insert .proposes ⟨"x"⟩) with
    remoteUri := some ⟨"p2"⟩ }

def earlyDoubt : Message :=
  .chat ⟨"c"⟩ .incoming (References.none.insert .proposesToCancel ⟨"p"⟩)

/-- A proposal, and a proposal to cancel it that came before any accept. -/
def doubtedDeal : Store :=
  .ofList [doubtedProposal, earlyDoubt]

/-- The accept of the proposal under its remote name. -/
def lateAccept : Message :=
  ((Envelope.mk "n" ⟨"a#s"⟩ ⟨"b#s"⟩).compose (.negotiate .accept ⟨"p2"⟩) ⟨"1", 5⟩).message

theorem permitted_takes_effect_doubtedDeal :
    doubtedDeal.find? ⟨"p2"⟩ = some doubtedProposal ∧
      Action.accept.isPermitted doubtedProposal (doubtedDeal.backlinks.status doubtedProposal)
        .connected = true ∧
      ((doubtedDeal.insert lateAccept).2.backlinks.status doubtedProposal).accepted = true ∧
      ((doubtedDeal.insert lateAccept).2.backlinks.status doubtedProposal).agreed = false ∧
      Action.retract.isPermitted doubtedProposal
          ((doubtedDeal.insert lateAccept).2.backlinks.status doubtedProposal) .connected =
        false := by
  have hs : doubtedDeal.Reachable := Store.reachable_ofList _
  have hfind : doubtedDeal.find? ⟨"p2"⟩ = some doubtedProposal := by decide
  have hpermitted : Action.accept.isPermitted doubtedProposal
      (doubtedDeal.backlinks.status doubtedProposal) .connected = true := by decide
  obtain ⟨-, ⟨haccepted, hagreed, -⟩, hbarred⟩ := permitted_takes_effect hs hfind (by decide)
    hpermitted ⟨"n", ⟨"a#s"⟩, ⟨"b#s"⟩⟩ ⟨"1", 5⟩ (by decide)
  have hstands : Stands (doubtedDeal.insert lateAccept).2.toList earlyDoubt :=
    (Backlinks.isRevoked_eq_false_iff (hs.insert lateAccept).coherent).1 (by decide)
  refine ⟨hfind, hpermitted, haccepted, ?_, hbarred (by decide) (by decide) _ (by decide) _⟩
  rw [← Bool.not_eq_true]
  exact fun h => hagreed.1 h ⟨earlyDoubt, by decide, hstands, by decide⟩

end Action

end Parley
