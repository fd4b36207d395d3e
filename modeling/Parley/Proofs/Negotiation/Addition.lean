/-
What one more message changes for the rules. Nothing refers to it when its name is unused, so it
stands, and it changes the status of others only through its own references: each kind of reference
adds to the rule it belongs to, and where it has no reference of a kind the rule is as before.
-/
import Parley.Action.Rules
import Parley.Proofs.Negotiation.Rules

namespace Parley

/-- No stored message is known under the identifier, and no reference is to it. -/
def Store.Unused (s : Store) (u : Uri) : Prop :=
  ∀ m ∈ s.toList, m.hasName u = false ∧ ∀ r ∈ m.references.pairs, r.2 ≠ u

instance (s : Store) (u : Uri) : Decidable (s.Unused u) :=
  inferInstanceAs
    (Decidable (∀ m ∈ s.toList, m.hasName u = false ∧ ∀ r ∈ m.references.pairs, r.2 ≠ u))

theorem Store.Unused.get? {s : Store} (hs : s.Coherent) {u : Uri} (h : s.Unused u) :
    s.get? u = none := by
  cases hm : s.get? u with
  | none => rfl
  | some m =>
    obtain ⟨hmem, e⟩ := hs.get?_eq_some_iff.1 hm
    have := (h m hmem).1
    rw [Message.hasName_iff.2 (Or.inl e)] at this
    cases this

/-- Nothing stored refers to a message whose only name is unused. -/
theorem Store.Unused.not_refersTo {s : Store} {n : Message} (h : s.Unused n.uri)
    (hremote : n.remoteUri = none) {a : Message} (ha : a ∈ s.toList) (k : ReferenceKind) :
    ¬ a.RefersTo k n := by
  rw [Message.refersTo_iff, hremote]
  rintro (hu | ⟨r, hr, -⟩)
  · exact (h a ha).2 (k, n.uri) (References.mem_pairs.2 hu) rfl
  · cases hr

/-- A message with a single reference refers to what is known under it, unless it is blank. -/
theorem Message.refersTo_single {n : Message} {k : ReferenceKind} {r : Uri}
    (hn : n.references = References.none.insert k r) {j : ReferenceKind} {m : Message} :
    n.RefersTo j m ↔ j = k ∧ r.isBlank = false ∧ m.hasName r = true := by
  have hmem (u : Uri) : u ∈ (n.references.get j).toList ↔ j = k ∧ u = r ∧ r.isBlank = false := by
    rw [hn, ← UriSet.mem_def, References.mem_get_insert]
    simp
  unfold RefersTo
  simp only [hmem]
  constructor
  · rintro ⟨u, ⟨hj, rfl, hb⟩, hu⟩
    exact ⟨hj, hb, hu⟩
  · rintro ⟨hj, hb, hu⟩
    exact ⟨r, ⟨hj, rfl, hb⟩, hu⟩

namespace Rules

/-! ## The rules after one more message -/

section

variable {ms ms' : List Message} {n : Message}

theorem rejected_add_iff (hms : ∀ x, x ∈ ms' ↔ x = n ∨ x ∈ ms) {m : Message} :
    Rejected ms' m ↔ n.RefersTo .rejects m ∨ Rejected ms m := by
  simp only [Rejected, hms, or_and_right, exists_or, exists_eq_left]

theorem retracted_add_iff (hms : ∀ x, x ∈ ms' ↔ x = n ∨ x ∈ ms) {m : Message} :
    Retracted ms' m ↔
      (m.direction = .outgoing ∧ n.direction = .outgoing ∧ n.RefersTo .retracts m) ∨
        Retracted ms m := by
  simp only [Retracted, hms, or_and_right, exists_or, exists_eq_left, and_or_left]

/-- Without a reference that rejects or retracts, every message stands as before. -/
theorem stands_add_iff (hms : ∀ x, x ∈ ms' ↔ x = n ∨ x ∈ ms) {m : Message}
    (hrej : ¬ n.RefersTo .rejects m) (hret : ¬ n.RefersTo .retracts m) :
    Stands ms' m ↔ Stands ms m := by
  unfold Stands
  rw [rejected_add_iff hms, retracted_add_iff hms]
  tauto

/-- What stands among more messages stood among fewer. -/
theorem Stands.of_add (hms : ∀ x, x ∈ ms' ↔ x = n ∨ x ∈ ms) {m : Message} (h : Stands ms' m) :
    Stands ms m :=
  ⟨fun hr => h.1 ((rejected_add_iff hms).2 (Or.inr hr)),
    fun hr => h.2 ((retracted_add_iff hms).2 (Or.inr hr))⟩

theorem Accepted.of_add (hms : ∀ x, x ∈ ms' ↔ x = n ∨ x ∈ ms) {m : Message}
    (hn : ¬ n.RefersTo .accepts m) (h : Accepted ms' m) : Accepted ms m := by
  obtain ⟨a, ha, hr, hc, hst⟩ := h
  rcases (hms a).1 ha with rfl | ha
  · exact absurd hr hn
  · exact ⟨a, ha, hr, hc, hst.of_add hms⟩

/-- A message to which nothing refers stands. -/
theorem stands_of_no_reference {m : Message} (h : ∀ a ∈ ms, ∀ k, ¬ a.RefersTo k m) :
    Stands ms m :=
  ⟨fun ⟨a, ha, hr⟩ => h a ha _ hr, fun ⟨_, a, ha, _, hr⟩ => h a ha _ hr⟩

/-- Where every message stands as before, the new message may be a valid accept, and the others are
valid accepts as before. -/
theorem validAccept_add_iff (hms : ∀ x, x ∈ ms' ↔ x = n ∨ x ∈ ms)
    (hst : ∀ x, Stands ms' x ↔ Stands ms x) {a m : Message} :
    ValidAccept ms' a m ↔
      (a = n ∧ n.RefersTo .accepts m ∧ n.hasContent = true ∧ Stands ms n) ∨
        ValidAccept ms a m := by
  unfold ValidAccept
  rw [hms, hst, or_and_right]
  refine or_congr_left ?_
  constructor
  · rintro ⟨rfl, h⟩
    exact ⟨rfl, h⟩
  · rintro ⟨rfl, h⟩
    exact ⟨rfl, h⟩

/-- Where the valid accepts are as before, the new message may be a cancellation, and the others are
cancellations as before. -/
theorem cancellation_add_iff (hms : ∀ x, x ∈ ms' ↔ x = n ∨ x ∈ ms)
    (hst : ∀ x, Stands ms' x ↔ Stands ms x)
    (hva : ∀ a m, ValidAccept ms' a m ↔ ValidAccept ms a m) {c m : Message} :
    Cancellation ms' c m ↔
      (c = n ∧ Stands ms n ∧ (n.RefersTo .proposesToCancel m ∨
        ∃ a, ValidAccept ms a m ∧ n.RefersTo .proposesToCancel a)) ∨
        Cancellation ms c m := by
  unfold Cancellation
  simp only [hms, hst, hva, or_and_right]
  refine or_congr_left ?_
  constructor
  · rintro ⟨rfl, h⟩
    exact ⟨rfl, h⟩
  · rintro ⟨rfl, h⟩
    exact ⟨rfl, h⟩

/-! ## Messages that only offer -/

/-- A message that accepts, rejects, retracts and proposes to cancel nothing. -/
structure OnlyOffers (n : Message) : Prop where
  accepts : ∀ m, ¬ n.RefersTo .accepts m
  rejects : ∀ m, ¬ n.RefersTo .rejects m
  retracts : ∀ m, ¬ n.RefersTo .retracts m
  cancels : ∀ m, ¬ n.RefersTo .proposesToCancel m

theorem OnlyOffers.stands_iff (hn : OnlyOffers n) (hms : ∀ x, x ∈ ms' ↔ x = n ∨ x ∈ ms)
    (m : Message) : Stands ms' m ↔ Stands ms m :=
  stands_add_iff hms (hn.rejects m) (hn.retracts m)

theorem OnlyOffers.validAccept_iff (hn : OnlyOffers n) (hms : ∀ x, x ∈ ms' ↔ x = n ∨ x ∈ ms)
    (a m : Message) : ValidAccept ms' a m ↔ ValidAccept ms a m := by
  rw [validAccept_add_iff hms (hn.stands_iff hms)]
  exact or_iff_right fun h => hn.accepts m h.2.1

theorem OnlyOffers.accepted_iff (hn : OnlyOffers n) (hms : ∀ x, x ∈ ms' ↔ x = n ∨ x ∈ ms)
    (m : Message) : Accepted ms' m ↔ Accepted ms m :=
  exists_congr fun a => hn.validAccept_iff hms a m

theorem OnlyOffers.cancellation_iff (hn : OnlyOffers n) (hms : ∀ x, x ∈ ms' ↔ x = n ∨ x ∈ ms)
    (c m : Message) : Cancellation ms' c m ↔ Cancellation ms c m := by
  rw [cancellation_add_iff hms (hn.stands_iff hms) (hn.validAccept_iff hms)]
  refine or_iff_right ?_
  rintro ⟨-, -, h | ⟨a, -, h⟩⟩
  · exact hn.cancels m h
  · exact hn.cancels a h

/-- A message that only offers changes nothing of another one but whether it is proposed or claimed.
-/
theorem OnlyOffers.describes (hn : OnlyOffers n) (hms : ∀ x, x ∈ ms' ↔ x = n ∨ x ∈ ms)
    {m : Message} {st st' : MessageStatus} (h : Describes ms m st) (h' : Describes ms' m st') :
    st' = { st with proposed := st'.proposed, claimed := st'.claimed } ∧
      (st'.proposed = true ↔ (Stands ms m ∧ n.RefersTo .proposes m) ∨ st.proposed = true) ∧
      (st'.claimed = true ↔ (Stands ms m ∧ n.RefersTo .claims m) ∨ st.claimed = true) := by
  have hrej : Rejected ms' m ↔ Rejected ms m := by
    rw [rejected_add_iff hms]
    exact or_iff_right (hn.rejects m)
  have hret : Retracted ms' m ↔ Retracted ms m := by
    rw [retracted_add_iff hms]
    exact or_iff_right fun hr => hn.retracts m hr.2.2
  have hacc := hn.accepted_iff hms m
  have hcancelled : Cancelled ms' m ↔ Cancelled ms m := by
    unfold Cancelled
    simp only [hacc, hn.cancellation_iff hms, hn.accepted_iff hms]
  have hpending : CancellationPending ms' m ↔ CancellationPending ms m := by
    unfold CancellationPending
    simp only [hacc, hcancelled, hn.cancellation_iff hms]
  have hagreed : Agreed ms' m ↔ Agreed ms m := by
    unfold Agreed
    rw [hacc, hcancelled, hpending]
  refine ⟨?_, ?_, ?_⟩
  · have e1 := Bool.eq_iff_iff.2 (h'.accepted.trans (hacc.trans h.accepted.symm))
    have e2 := Bool.eq_iff_iff.2 (h'.agreed.trans (hagreed.trans h.agreed.symm))
    have e3 := Bool.eq_iff_iff.2 (h'.rejected.trans (hrej.trans h.rejected.symm))
    have e4 := Bool.eq_iff_iff.2 (h'.retracted.trans (hret.trans h.retracted.symm))
    have e5 := Bool.eq_iff_iff.2 (h'.cancelled.trans (hcancelled.trans h.cancelled.symm))
    have e6 := Bool.eq_iff_iff.2
      (h'.cancellationPending.trans (hpending.trans h.cancellationPending.symm))
    rw [← e1, ← e2, ← e3, ← e4, ← e5, ← e6]
  · rw [h'.proposed, h.proposed]
    simp only [Proposed, hn.stands_iff hms, hms, or_and_right, exists_or, exists_eq_left,
      and_or_left]
  · rw [h'.claimed, h.claimed]
    simp only [Claimed, hn.stands_iff hms, hms, or_and_right, exists_or, exists_eq_left,
      and_or_left]

/-- Statuses that agree on all but what is proposed and claimed. -/
theorem eq_iff_of_same_rest {st st' : MessageStatus}
    (h : st' = { st with proposed := st'.proposed, claimed := st'.claimed }) :
    st' = st ↔ (st'.proposed = true ↔ st.proposed = true) ∧
      (st'.claimed = true ↔ st.claimed = true) := by
  constructor
  · intro e
    rw [e]
    exact ⟨Iff.rfl, Iff.rfl⟩
  · rintro ⟨h1, h2⟩
    rw [h, Bool.eq_iff_iff.2 h1, Bool.eq_iff_iff.2 h2]

/-- Adding something that counts only while a message is not revoked changes nothing exactly if it
was there, or the message is revoked. -/
theorem or_iff_right_iff_imp_or (revoked offered : Bool) (p : Prop) :
    ((revoked = false ∧ p) ∨ offered = true ↔ offered = true) ↔
      (p → (offered || revoked) = true) := by
  cases revoked <;> cases offered <;> simp

/-- A message that only offers leaves the status of another one as it is exactly if what it offers
of it is offered already, or is withdrawn. -/
theorem OnlyOffers.status_eq_iff (hn : OnlyOffers n) (hms : ∀ x, x ∈ ms' ↔ x = n ∨ x ∈ ms)
    {m : Message} {st st' : MessageStatus} (h : Describes ms m st) (h' : Describes ms' m st') :
    st' = st ↔
      (n.RefersTo .proposes m → (st.proposed || st.rejected || st.retracted) = true) ∧
        (n.RefersTo .claims m → (st.claimed || st.rejected || st.retracted) = true) := by
  obtain ⟨hst, hp, hc⟩ := hn.describes hms h h'
  have hstands : Stands ms m ↔ (st.rejected || st.retracted) = false := by
    rw [Bool.or_eq_false_iff, ← Bool.not_eq_true, ← Bool.not_eq_true, h.rejected, h.retracted]
    rfl
  rw [eq_iff_of_same_rest hst, hp, hc, hstands, Bool.or_assoc, Bool.or_assoc]
  exact and_congr (or_iff_right_iff_imp_or _ _ _) (or_iff_right_iff_imp_or _ _ _)

end

end Rules

/-! ## A message that takes an action -/

section

open Rules

variable {ms : List Message} {n m : Message} {st : MessageStatus}

/-- Once a message has taken an action other than an offer on a message, the action may not be taken
on it again. -/
theorem Action.not_qualifies_of_taken {a : Action} (hp : a ≠ .propose) (hc : a ≠ .claim)
    (hn : n ∈ ms) (href : n.RefersTo a.reference m) (hdir : n.direction = .outgoing)
    (hcontent : n.hasContent = true) (hstands : Stands ms n) (h : Describes ms m st) :
    a.qualifies m st = false := by
  cases a with
  | propose => exact absurd rfl hp
  | claim => exact absurd rfl hc
  | accept =>
    have hacc := h.accepted.2 ⟨n, hn, href, hcontent, hstands⟩
    simp [qualifies, MessageStatus.isDecided, hacc]
  | reject =>
    have hrej := h.rejected.2 ⟨n, hn, href⟩
    simp [qualifies, MessageStatus.isDecided, hrej]
  | retract =>
    by_cases hm : m.direction = .outgoing
    · have hret := h.retracted.2 ⟨hm, n, hn, hdir, href⟩
      simp [qualifies, MessageStatus.isDecided, hret]
    · simp [qualifies, Message.isOwn, hm]
  | proposeToCancel =>
    have hcan : Cancellation ms n m := ⟨hn, hstands, Or.inl href⟩
    by_cases hacc : Accepted ms m
    · by_cases hcancelled : Cancelled ms m
      · simp [qualifies, Message.admitsCancellation, h.cancelled.2 hcancelled]
      · have hpending := h.cancellationPending.2 ⟨hacc, hcancelled, n, hcan⟩
        simp [qualifies, Message.admitsCancellation, hpending]
    · have hno : st.accepted = false := Bool.eq_false_iff.2 fun ha => hacc (h.accepted.1 ha)
      simp [qualifies, Message.admitsCancellation, hno]

end

/-- The new message of an action on what a store knows under an identifier. -/
structure Message.Takes (n : Message) (a : Action) (r : Uri) (s : Store) : Prop where
  direction : n.direction = .outgoing
  hasContent : n.hasContent = true
  references : n.references = References.none.insert a.reference r
  remote : n.remoteUri = none
  unused : s.Unused n.uri
  known : ∃ m ∈ s.toList, m.hasName r = true

namespace Message.Takes

open Rules

variable {n : Message} {a : Action} {r : Uri} {s : Store} {ms' : List Message}

theorem refersTo_iff (h : n.Takes a r s) {k : ReferenceKind} {m : Message} :
    n.RefersTo k m ↔ k = a.reference ∧ r.isBlank = false ∧ m.hasName r = true :=
  refersTo_single h.references

theorem hasName_eq_false (h : n.Takes a r s) : n.hasName r = false := by
  obtain ⟨m, hm, hr⟩ := h.known
  have hne : n.uri ≠ r := by
    rintro rfl
    rw [(h.unused m hm).1] at hr
    cases hr
  simp [hasName, h.remote, hne]

/-- Nothing refers to the message of an action, and it does not refer to itself. -/
theorem not_refersTo (h : n.Takes a r s) (hms : ∀ x, x ∈ ms' ↔ x = n ∨ x ∈ s.toList) {x : Message}
    (hx : x ∈ ms') (k : ReferenceKind) : ¬ x.RefersTo k n := by
  rcases (hms x).1 hx with rfl | hx
  · intro hr
    have := (h.refersTo_iff.1 hr).2.2
    rw [h.hasName_eq_false] at this
    cases this
  · exact h.unused.not_refersTo h.remote hx k

theorem stands (h : n.Takes a r s) (hms : ∀ x, x ∈ ms' ↔ x = n ∨ x ∈ s.toList) : Stands ms' n :=
  stands_of_no_reference fun _ hx k => h.not_refersTo hms hx k

/-- A message of an action with a blank identifier, or of a proposal or claim, only offers. -/
theorem onlyOffers (h : n.Takes a r s) (ha : r.isBlank = true ∨ a = .propose ∨ a = .claim) :
    OnlyOffers n := by
  have hno (k : ReferenceKind) (hp : k ≠ .proposes) (hc : k ≠ .claims) (m : Message) :
      ¬ n.RefersTo k m := by
    rw [h.refersTo_iff]
    rintro ⟨hk, hb, -⟩
    rcases ha with hr | rfl | rfl
    · rw [hr] at hb
      cases hb
    · exact hp hk
    · exact hc hk
  exact ⟨hno .accepts nofun nofun, hno .rejects nofun nofun, hno .retracts nofun nofun,
    hno .proposesToCancel nofun nofun⟩

end Message.Takes

end Parley
