/-
Withdrawal is final. A status is derived anew each time, from whatever is stored by then, so what
makes a rejection or a retraction permanent is that nothing it rests on can go away: the message
that rejects or retracts stays stored with its references and its direction, and its target keeps
every name that it had. Main statement: after any further operations a rejected message is rejected
and a retracted one retracted, neither is proposed or claimed, and the only action that may still be
taken on it is to propose that it be cancelled.
-/
import Parley.Action.Rules
import Parley.Proofs.Negotiation.Rules
import Parley.Proofs.Store.Log

namespace Parley

/-- Later versions refer to each other if the earlier ones did. -/
theorem Message.IsLater.refersTo {old new m m' : Message} (h : old.IsLater new)
    (hm : m.IsLater m') {k : ReferenceKind} (href : old.RefersTo k m) : new.RefersTo k m' := by
  obtain ⟨u, hu, hname⟩ := href
  refine ⟨u, ?_, hm.names.hasName hname⟩
  rw [h.references]
  exact hu

namespace Rules

/-! ## The rules while messages are added and filled in -/

section

variable {ms ms' : List Message} {m m' : Message}
  (hms : ∀ a ∈ ms, ∃ a' ∈ ms', a.IsLater a') (hm : m.IsLater m')

include hms hm

theorem Rejected.of_later (h : Rejected ms m) : Rejected ms' m' := by
  obtain ⟨a, ha, href⟩ := h
  obtain ⟨a', ha', hlater⟩ := hms a ha
  exact ⟨a', ha', hlater.refersTo hm href⟩

theorem Retracted.of_later (h : Retracted ms m) : Retracted ms' m' := by
  obtain ⟨hout, a, ha, haout, href⟩ := h
  obtain ⟨a', ha', hlater⟩ := hms a ha
  exact ⟨hm.direction.trans hout, a', ha', hlater.direction.trans haout, hlater.refersTo hm href⟩

/-- What stands in the end stood all along. -/
theorem Stands.of_later (h : Stands ms' m') : Stands ms m :=
  ⟨fun hrej => h.1 (hrej.of_later hms hm), fun hret => h.2 (hret.of_later hms hm)⟩

end

variable {ms : List Message} {m : Message} {st : MessageStatus}

/-- A rejected or retracted message is neither proposed nor claimed. -/
theorem Describes.not_offered (h : Describes ms m st)
    (hrevoked : st.rejected = true ∨ st.retracted = true) :
    st.proposed = false ∧ st.claimed = false := by
  have hfalls : ¬ Stands ms m := by
    rintro ⟨hrej, hret⟩
    exact hrevoked.elim (fun e => hrej (h.rejected.1 e)) fun e => hret (h.retracted.1 e)
  constructor
  · exact Bool.eq_false_iff.2 fun e => hfalls (h.proposed.1 e).1
  · exact Bool.eq_false_iff.2 fun e => hfalls (h.claimed.1 e).1

end Rules

/-- A rejected or retracted message qualifies for no action but a proposal to cancel it. -/
theorem Action.not_permitted_of_revoked {st : MessageStatus}
    (h : st.rejected = true ∨ st.retracted = true) {a : Action} (ha : a ≠ .proposeToCancel)
    (m : Message) (state : ConnectionState) : a.isPermitted m st state = false := by
  have hrevoked : (st.retracted || st.rejected) = true := by
    rw [Bool.or_eq_true]
    exact h.symm
  have hdecided : st.isDecided = true := by
    unfold MessageStatus.isDecided
    rw [Bool.or_assoc, hrevoked, Bool.or_true]
  have hunqualified : a.qualifies m st = false := by
    cases a with
    | propose | claim => simp [qualifies, hrevoked]
    | accept | reject | retract => simp [qualifies, hdecided]
    | proposeToCancel => exact absurd rfl ha
  rw [isPermitted, hunqualified, Bool.and_false]

namespace Store

open Rules

/-- A stored message that is rejected or retracted stays so, whatever is done to the store: it is
never proposed or claimed again, and in no state of the connection may it be proposed, claimed,
accepted, rejected or retracted. -/
theorem withdrawal_is_final {s : Store} (hs : s.Reachable) {m : Message} (hm : m ∈ s.toList)
    (ops : List Operation) :
    ∃ m', (s.performAll ops).get? m.uri = some m' ∧ m.IsLater m' ∧
      ((s.backlinks.status m).rejected = true →
        ((s.performAll ops).backlinks.status m').rejected = true) ∧
      ((s.backlinks.status m).retracted = true →
        ((s.performAll ops).backlinks.status m').retracted = true) ∧
      ((s.backlinks.status m).rejected = true ∨ (s.backlinks.status m).retracted = true →
        ((s.performAll ops).backlinks.status m').proposed = false ∧
        ((s.performAll ops).backlinks.status m').claimed = false ∧
        ∀ a : Action, a ≠ .proposeToCancel → ∀ state,
          a.isPermitted m' ((s.performAll ops).backlinks.status m') state = false) := by
  obtain ⟨m', hm', hfilled⟩ := exists_filledIn (hs.coherent.get?_uri hm) ops
  have hlater : m.IsLater m' := hfilled.toIsLater
  have hkept (a : Message) (ha : a ∈ s.toList) : ∃ a' ∈ (s.performAll ops).toList, a.IsLater a' :=
    exists_later hs ops ha
  have hbefore := Backlinks.status_describes hs.coherent m
  have hafter := Backlinks.status_describes (hs.performAll ops).coherent m'
  have hrejected (h : (s.backlinks.status m).rejected = true) :
      ((s.performAll ops).backlinks.status m').rejected = true :=
    hafter.rejected.2 ((hbefore.rejected.1 h).of_later hkept hlater)
  have hretracted (h : (s.backlinks.status m).retracted = true) :
      ((s.performAll ops).backlinks.status m').retracted = true :=
    hafter.retracted.2 ((hbefore.retracted.1 h).of_later hkept hlater)
  refine ⟨m', hm', hlater, hrejected, hretracted, fun h => ?_⟩
  have hrevoked := h.imp hrejected hretracted
  obtain ⟨hproposed, hclaimed⟩ := hafter.not_offered hrevoked
  refine ⟨hproposed, hclaimed, fun a ha state => ?_⟩
  exact Action.not_permitted_of_revoked hrevoked ha m' state

/-- An own proposal is rejected under the counterpart's name of it, which the store learns last. -/
def lateRejection : List Operation :=
  [.insert (.chat ⟨"p"⟩ .outgoing (References.none.insert .proposes ⟨"x"⟩)),
    .insert (.chat ⟨"no"⟩ .incoming (References.none.insert .rejects ⟨"p2"⟩)),
    .acknowledge ⟨"p"⟩ (some ⟨"p2"⟩)]

/-- Another message takes the counterpart's name, and the proposal is proposed and accepted. -/
def revivalAttempt : List Operation :=
  [.insert { Message.chat ⟨"thief"⟩ .incoming .none with remoteUri := some ⟨"p2"⟩ },
    .extend [.chat ⟨"again"⟩ .outgoing (References.none.insert .proposes ⟨"p"⟩),
      .chat ⟨"yes"⟩ .incoming (References.none.insert .accepts ⟨"p"⟩)],
    .recordFailure ⟨"no"⟩]

theorem withdrawal_is_final_lateRejection :
    ∃ m, m ∈ (empty.performAll lateRejection).toList ∧
      ((empty.performAll lateRejection).backlinks.status m).rejected = true ∧
      ∃ m', ((empty.performAll lateRejection).performAll revivalAttempt).get? ⟨"p"⟩ = some m' ∧
        (((empty.performAll lateRejection).performAll revivalAttempt).backlinks.status
          m').rejected = true ∧
        (((empty.performAll lateRejection).performAll revivalAttempt).backlinks.status
          m').proposed = false := by
  let m : Message :=
    { Message.chat ⟨"p"⟩ .outgoing (References.none.insert .proposes ⟨"x"⟩) with
      remoteUri := some ⟨"p2"⟩
      delivery := ⟨true, false, false⟩ }
  have hm : m ∈ (empty.performAll lateRejection).toList := by decide +kernel
  have hrejected : ((empty.performAll lateRejection).backlinks.status m).rejected = true := by
    decide +kernel
  obtain ⟨m', hm', -, hstill, -, hnever⟩ :=
    withdrawal_is_final (Reachable.empty.performAll lateRejection) hm revivalAttempt
  exact ⟨m, hm, hrejected, m', hm', hstill hrejected, (hnever (Or.inl hrejected)).1⟩

end Store

end Parley
