/-
How far a message reaches. A status is derived through at most four references: an accept of a
cancellation counts while it is not withdrawn, the cancellation may be of an accept of the message,
and each of these is found by its references. A new message from which no chain of at most that
many references leads to another one leaves the status of the other one as it is.

The proof goes along the derivation. What points at a message is one reference nearer to whatever is
out of reach of the message, so each part of a rule is as before for the messages that it looks at,
and these are stored exactly if they were.
-/
import Parley.Proofs.Negotiation.Addition

namespace Parley

/-! ## Chains of references -/

/-- A message names another one under some kind. -/
def Message.PointsAt (a m : Message) : Prop :=
  ∃ k ∈ ReferenceKind.all, a.RefersTo k m

instance (a m : Message) : Decidable (a.PointsAt m) :=
  inferInstanceAs (Decidable (∃ k ∈ ReferenceKind.all, a.RefersTo k m))

theorem Message.RefersTo.pointsAt {a m : Message} {k : ReferenceKind} (h : a.RefersTo k m) :
    a.PointsAt m :=
  ⟨k, ReferenceKind.mem_all k, h⟩

/-- A chain of so many references leads from a message through given ones to another one. -/
def Linked (ms : List Message) : Nat → Message → Message → Prop
  | 0, a, m => a = m
  | length + 1, a, m => ∃ b ∈ ms, a.PointsAt b ∧ Linked ms length b m

instance Linked.decidable (ms : List Message) :
    ∀ length a m, Decidable (Linked ms length a m)
  | 0, a, m => inferInstanceAs (Decidable (a = m))
  | length + 1, a, m =>
    have := fun b => Linked.decidable ms length b m
    inferInstanceAs (Decidable (∃ b ∈ ms, a.PointsAt b ∧ Linked ms length b m))

/-- A reference at the end makes a chain longer by one. -/
theorem Linked.concat {ms : List Message} {b m : Message} (hm : m ∈ ms) (hb : b.PointsAt m)
    {length : Nat} {a : Message} (h : Linked ms length a b) : Linked ms (length + 1) a m := by
  induction length generalizing a with
  | zero =>
    obtain rfl : a = b := h
    exact ⟨m, hm, hb, rfl⟩
  | succ length ih =>
    obtain ⟨c, hc, hac, hcb⟩ := h
    exact ⟨c, hc, hac, ih hcb⟩

/-- More messages leave room for more chains. -/
theorem Linked.mono {ms ms' : List Message} (h : ∀ x, x ∈ ms → x ∈ ms') {length : Nat}
    {a m : Message} (hlinked : Linked ms length a m) : Linked ms' length a m := by
  induction length generalizing a with
  | zero => exact hlinked
  | succ length ih =>
    obtain ⟨b, hb, hab, hbm⟩ := hlinked
    exact ⟨b, h b hb, hab, ih hbm⟩

namespace Rules

/-- A message is among given ones, and no chain of at most so many references leads to it from
another one. -/
structure OutOfReach (ms : List Message) (n : Message) (bound : Nat) (m : Message) : Prop where
  mem : m ∈ ms
  apart : ∀ length, 1 ≤ length → length ≤ bound → ¬ Linked ms length n m

namespace OutOfReach

variable {ms : List Message} {n m b : Message} {bound : Nat}

theorem mono {less : Nat} (h : OutOfReach ms n bound m) (hle : less ≤ bound) :
    OutOfReach ms n less m :=
  ⟨h.mem, fun length hpos hlength => h.apart length hpos (Nat.le_trans hlength hle)⟩

theorem not_pointsAt (h : OutOfReach ms n (bound + 1) m) : ¬ n.PointsAt m := by
  intro hn
  exact h.apart 1 (Nat.le_refl 1) (by omega) ⟨m, h.mem, hn, rfl⟩

theorem not_refersTo (h : OutOfReach ms n (bound + 1) m) (k : ReferenceKind) :
    ¬ n.RefersTo k m :=
  fun hn => h.not_pointsAt hn.pointsAt

/-- What points at a message is one reference nearer. -/
theorem pointing (h : OutOfReach ms n (bound + 1) m) (hb : b ∈ ms) (hbm : b.PointsAt m) :
    OutOfReach ms n bound b := by
  refine ⟨hb, fun length _ hlength hlinked => ?_⟩
  exact h.apart (length + 1) (by omega) (by omega) (hlinked.concat h.mem hbm)

/-! ## The rules beyond reach -/

section

variable {ms' : List Message} (hms : ∀ x, x ∈ ms' ↔ x = n ∨ x ∈ ms)

include hms

/-- What refers to a message is there exactly if it was, and is one reference nearer. -/
theorem source (h : OutOfReach ms' n (bound + 1) m) {k : ReferenceKind} (hb : b.RefersTo k m) :
    (b ∈ ms' ↔ b ∈ ms) ∧ (b ∈ ms' → OutOfReach ms' n bound b) := by
  refine ⟨?_, fun hmem => h.pointing hmem hb.pointsAt⟩
  rw [hms]
  refine or_iff_right ?_
  rintro rfl
  exact h.not_refersTo k hb

theorem exists_source_iff (h : OutOfReach ms' n 1 m) (k : ReferenceKind) :
    (∃ a ∈ ms', a.RefersTo k m) ↔ ∃ a ∈ ms, a.RefersTo k m := by
  refine exists_congr fun a => and_congr_left fun ha => ?_
  exact (h.source hms ha).1

theorem rejected_iff (h : OutOfReach ms' n 1 m) : Rejected ms' m ↔ Rejected ms m :=
  h.exists_source_iff hms .rejects

theorem retracted_iff (h : OutOfReach ms' n 1 m) : Retracted ms' m ↔ Retracted ms m := by
  rw [retracted_add_iff hms]
  refine or_iff_right ?_
  rintro ⟨-, -, hn⟩
  exact h.not_refersTo .retracts hn

theorem stands_iff (h : OutOfReach ms' n 1 m) : Stands ms' m ↔ Stands ms m :=
  stands_add_iff hms (h.not_refersTo .rejects) (h.not_refersTo .retracts)

theorem proposed_iff (h : OutOfReach ms' n 1 m) : Proposed ms' m ↔ Proposed ms m :=
  and_congr (h.stands_iff hms) (h.exists_source_iff hms .proposes)

theorem claimed_iff (h : OutOfReach ms' n 1 m) : Claimed ms' m ↔ Claimed ms m :=
  and_congr (h.stands_iff hms) (h.exists_source_iff hms .claims)

/-- An accept may be withdrawn, so its validity is two references deep. -/
theorem validAccept_iff (h : OutOfReach ms' n 2 m) {a : Message} :
    ValidAccept ms' a m ↔ ValidAccept ms a m := by
  constructor
  · rintro ⟨ha, href, hcontent, hstands⟩
    obtain ⟨hmem, hnear⟩ := h.source hms href
    exact ⟨hmem.1 ha, href, hcontent, ((hnear ha).stands_iff hms).1 hstands⟩
  · rintro ⟨ha, href, hcontent, hstands⟩
    obtain ⟨hmem, hnear⟩ := h.source hms href
    have ha' := hmem.2 ha
    exact ⟨ha', href, hcontent, ((hnear ha').stands_iff hms).2 hstands⟩

theorem accepted_iff (h : OutOfReach ms' n 2 m) : Accepted ms' m ↔ Accepted ms m :=
  exists_congr fun _ => h.validAccept_iff hms

/-- What proposes to cancel a message or a valid accept of it is there exactly if it was, and is at
most two references nearer. -/
theorem cancelling (h : OutOfReach ms' n (bound + 2) m) {c : Message}
    (hc : c.RefersTo .proposesToCancel m ∨
      ∃ a, ValidAccept ms' a m ∧ c.RefersTo .proposesToCancel a) :
    (c ∈ ms' ↔ c ∈ ms) ∧ (c ∈ ms' → OutOfReach ms' n bound c) := by
  rcases hc with hc | ⟨a, ⟨ha, haccepts, -, -⟩, hc⟩
  · exact (h.mono (Nat.le_succ _)).source hms hc
  · exact ((h.source hms haccepts).2 ha).source hms hc

/-- A cancellation may be of an accept, and may be withdrawn, so it is three references deep. -/
theorem cancellation_iff (h : OutOfReach ms' n 3 m) {c : Message} :
    Cancellation ms' c m ↔ Cancellation ms c m := by
  have hvalid (a : Message) : ValidAccept ms' a m ↔ ValidAccept ms a m :=
    (h.mono (Nat.le_succ _)).validAccept_iff hms
  have htarget : (c.RefersTo .proposesToCancel m ∨
        ∃ a, ValidAccept ms' a m ∧ c.RefersTo .proposesToCancel a) ↔
      c.RefersTo .proposesToCancel m ∨
        ∃ a, ValidAccept ms a m ∧ c.RefersTo .proposesToCancel a := by
    simp only [hvalid]
  constructor
  · rintro ⟨hc, hstands, hcancels⟩
    obtain ⟨hmem, hnear⟩ := h.cancelling hms hcancels
    exact ⟨hmem.1 hc, ((hnear hc).stands_iff hms).1 hstands, htarget.1 hcancels⟩
  · rintro ⟨hc, hstands, hcancels⟩
    obtain ⟨hmem, hnear⟩ := h.cancelling hms (htarget.2 hcancels)
    have hc' := hmem.2 hc
    exact ⟨hc', ((hnear hc').stands_iff hms).2 hstands, htarget.2 hcancels⟩

/-- The accept of a cancellation is two references deep from the cancellation, and that at most two
from the message. -/
theorem cancelled_iff (h : OutOfReach ms' n 4 m) : Cancelled ms' m ↔ Cancelled ms m := by
  refine and_congr ((h.mono (by decide)).accepted_iff hms) (exists_congr fun c => ?_)
  have hcancellation : Cancellation ms' c m ↔ Cancellation ms c m :=
    (h.mono (by decide)).cancellation_iff hms
  rw [← hcancellation]
  refine and_congr_right fun hc => ?_
  exact ((h.cancelling hms hc.2.2).2 hc.1).accepted_iff hms

theorem cancellationPending_iff (h : OutOfReach ms' n 4 m) :
    CancellationPending ms' m ↔ CancellationPending ms m := by
  refine and_congr ((h.mono (by decide)).accepted_iff hms) (and_congr ?_ ?_)
  · exact not_congr (h.cancelled_iff hms)
  · exact exists_congr fun c => (h.mono (by decide)).cancellation_iff hms

theorem agreed_iff (h : OutOfReach ms' n 4 m) : Agreed ms' m ↔ Agreed ms m :=
  and_congr ((h.mono (by decide)).accepted_iff hms)
    (and_congr (not_congr (h.cancelled_iff hms)) (not_congr (h.cancellationPending_iff hms)))

/-- What describes a message beyond reach described it before. -/
theorem describes (h : OutOfReach ms' n 4 m) {st : MessageStatus} (hst : Describes ms' m st) :
    Describes ms m st where
  proposed := hst.proposed.trans ((h.mono (by decide)).proposed_iff hms)
  claimed := hst.claimed.trans ((h.mono (by decide)).claimed_iff hms)
  accepted := hst.accepted.trans ((h.mono (by decide)).accepted_iff hms)
  agreed := hst.agreed.trans (h.agreed_iff hms)
  rejected := hst.rejected.trans ((h.mono (by decide)).rejected_iff hms)
  retracted := hst.retracted.trans ((h.mono (by decide)).retracted_iff hms)
  cancelled := hst.cancelled.trans (h.cancelled_iff hms)
  cancellationPending := hst.cancellationPending.trans (h.cancellationPending_iff hms)

end

end OutOfReach

end Rules

namespace Backlinks

open Rules

variable {s : Store} {n m : Message}

/-- A new message leaves the status of what is out of its reach as it is. -/
theorem status_insert_of_outOfReach (hs : s.Reachable) (hn : s.get? n.uri = none)
    (h : OutOfReach (s.insert n).2.toList n 4 m) :
    (s.insert n).2.backlinks.status m = s.backlinks.status m := by
  have hafter := status_describes (hs.insert n).coherent m
  have hbefore := h.describes (fun _ => Store.mem_insert_iff hn) hafter
  exact hbefore.unique (status_describes hs.coherent m)

/-- If a new message changes the status of a stored one, a chain of one to four references leads
from it to the other through the stored messages and itself. -/
theorem chain_of_status_change {s : Store} (hs : s.Reachable) {n m : Message}
    (hn : s.get? n.uri = none) (hm : m ∈ s.toList)
    (hchange : (s.insert n).2.backlinks.status m ≠ s.backlinks.status m) :
    ∃ length, 1 ≤ length ∧ length ≤ 4 ∧ Linked (n :: s.toList) length n m := by
  have hms (x : Message) : x ∈ (s.insert n).2.toList ↔ x ∈ n :: s.toList := by
    rw [Store.mem_insert_iff hn, List.mem_cons]
  by_contra hno
  refine hchange (status_insert_of_outOfReach hs hn ⟨?_, fun length hpos hle hlinked => ?_⟩)
  · exact (hms m).2 (List.mem_cons_of_mem n hm)
  · exact hno ⟨length, hpos, hle, hlinked.mono fun x => (hms x).1⟩

/-- A proposal that an accept makes a deal. -/
def dissolvedProposal : Message :=
  .chat ⟨"p"⟩ .outgoing .none

/-- The deal, and a cancellation of the accept that is accepted itself. -/
def dissolvedDeal : Store :=
  .ofList
    [dissolvedProposal,
      .chat ⟨"a"⟩ .incoming (References.none.insert .accepts ⟨"p"⟩),
      .chat ⟨"c"⟩ .outgoing (References.none.insert .proposesToCancel ⟨"a"⟩),
      .chat ⟨"b"⟩ .incoming (References.none.insert .accepts ⟨"c"⟩)]

/-- A rejection of the accept of the cancellation. -/
def lateRejection : Message :=
  .chat ⟨"n"⟩ .outgoing (References.none.insert .rejects ⟨"b"⟩)

/-- The rejection changes the status of the proposal from four references away, and no nearer. -/
theorem chain_of_status_change_dissolvedDeal :
    dissolvedDeal.Reachable ∧ dissolvedDeal.get? lateRejection.uri = none ∧
      dissolvedProposal ∈ dissolvedDeal.toList ∧
      (dissolvedDeal.insert lateRejection).2.backlinks.status dissolvedProposal ≠
        dissolvedDeal.backlinks.status dissolvedProposal ∧
      (∀ length ∈ [1, 2, 3],
        ¬ Linked (lateRejection :: dissolvedDeal.toList) length lateRejection dissolvedProposal) ∧
      ∃ length, 1 ≤ length ∧ length ≤ 4 ∧
        Linked (lateRejection :: dissolvedDeal.toList) length lateRejection dissolvedProposal := by
  have hs : dissolvedDeal.Reachable := Store.reachable_ofList _
  have hn : dissolvedDeal.get? lateRejection.uri = none := by decide
  have hp : dissolvedProposal ∈ dissolvedDeal.toList := by decide
  have hchange : (dissolvedDeal.insert lateRejection).2.backlinks.status dissolvedProposal ≠
      dissolvedDeal.backlinks.status dissolvedProposal := by decide
  exact ⟨hs, hn, hp, hchange, by decide, chain_of_status_change hs hn hp hchange⟩

end Backlinks

end Parley
