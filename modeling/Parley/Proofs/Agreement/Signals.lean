/-
Signals that agreement data may be outdated, and how long they last. A connection is flagged when
an admitted message refers to others, and stays flagged while it is known, until it is reconciled.
A reconciliation takes its inputs, asks the node, and at last stores the view and lowers the flag.
It lowers the flag whatever came in since it took its inputs: a signal of that window is lost, and
only what is admitted afterwards makes the connection one that is reconciled again.
-/
import Parley.Proofs.Session.Admission
import Parley.Proofs.Session.Interleaving

namespace Parley

namespace Session

/-! ## Flagged connections -/

/-- The connections flagged for reconciliation. -/
def staleConnections (s : Session) : List Uri :=
  (s.connections.filter fun _ c => c.agreementStale).keys

theorem mem_staleConnections_iff {s : Session} {u : Uri} :
    u ∈ s.staleConnections ↔ ∃ c, s.connections.get? u = some c ∧ c.agreementStale = true := by
  unfold staleConnections
  simp only [UriMap.mem_keys, UriMap.get?_filter, Option.filter_eq_some_iff]

/-- Whether moves admit a message to a connection that refers to others. -/
def signals (s : Session) (u : Uri) (ms : List Move) : Bool :=
  (s.admitted u ms).any (·.hasEffects)

/-- The move leaves a connection known and does not reconcile it. -/
def Unreconciled (u : Uri) (s : Session) (m : Move) : Prop :=
  (s.move m).connections.contains u = true ∧ m.reconciles u = false

theorem mem_staleConnections_move_iff {s : Session} {u : Uri} {m : Move}
    (h : s.Unreconciled u m) :
    u ∈ (s.move m).staleConnections ↔ u ∈ s.staleConnections ∨
      (m.admitted u (s.connections.get? u)).any (·.hasEffects) = true := by
  obtain ⟨hknown, hm⟩ := h
  obtain ⟨d, hd⟩ := Option.isSome_iff_exists.1 hknown
  have hmoved := s.effect_move m u
  rw [hd] at hmoved
  -- an unknown connection counts as one that is not flagged
  have hbefore : u ∈ s.staleConnections ↔
      ((s.connections.get? u).getD Connection.blank).agreementStale = true := by
    rw [mem_staleConnections_iff]
    cases s.connections.get? u with
    | none => simp [Connection.blank, Connection.fresh]
    | some c => simp
  rw [hbefore, ← Bool.or_eq_true, ← hmoved.outcome.agreementStale hm, mem_staleConnections_iff]
  simp [hd]

/-- While a connection is known and not reconciled, it is flagged if it was or if a signal came. -/
theorem mem_staleConnections_moves_iff {ms : List Move} {s : Session} {u : Uri}
    (h : s.Throughout (Unreconciled u) ms) :
    u ∈ (s.moves ms).staleConnections ↔ u ∈ s.staleConnections ∨ s.signals u ms = true := by
  induction ms generalizing s with
  | nil => simp [signals, admitted]
  | cons m ms ih =>
    rw [moves_cons, ih h.2, mem_staleConnections_move_iff h.1, signals, signals, admitted,
      List.any_append, Bool.or_eq_true, or_assoc]

theorem not_mem_staleConnections_of_reconciled (s : Session) (u : Uri) (view : AgreementView)
    (fetched : List Message) :
    u ∉ (s.apply (.agreementReconciled u view fetched)).staleConnections := by
  rw [mem_staleConnections_iff, s.get?_apply_of_addressee rfl, if_pos rfl]
  rintro ⟨c, hc, hs⟩
  obtain ⟨b, -, rfl⟩ := Option.map_eq_some_iff.1 hc
  cases hs

end Session

namespace Call

/-- A reconciliation with a result claims the agreement data, waits for the node while others move,
and at last stores the view. -/
theorem runAmong_refreshAgreements {settings : Settings} {u : Uri} {e e' : Surroundings}
    {s s' : Session} {r : Reconciliation}
    (h : (refreshAgreements settings u).runAmong e s = (.ok (some r), e', s')) :
    ∃ inputs claimed, claimAgreement u (s.moves (e.others 0)) = (.ok (some inputs), claimed) ∧
      s' = (claimed.moves (e.others 1)).apply (.agreementReconciled u r.view r.fetched) := by
  unfold refreshAgreements at h
  rw [Program.runAmong_bind, Program.runAmong_transact] at h
  rcases hclaim : claimAgreement u (s.moves (e.others 0)) with ⟨f | _ | inputs, claimed⟩
  · rw [hclaim] at h
    cases h
  · rw [hclaim] at h
    cases h
  · rw [hclaim] at h
    refine ⟨inputs, claimed, rfl, ?_⟩
    -- what is left of the call: it asks the node, which takes no atomic step, and reports
    replace h : ((Program.ofInquiry settings
        (reconcile u inputs.ownAtom inputs.store settings.maxDepth inputs.previous)) >>=
          _).runAmong e.acted claimed = (Except.ok (some r), e', s') := h
    obtain ⟨outcome, after, hasked, hothers⟩ := Program.runAmong_ofInquiry settings
      (reconcile u inputs.ownAtom inputs.store settings.maxDepth inputs.previous) e.acted claimed
    rw [Program.runAmong_bind, hasked] at h
    cases outcome with
    | error f => cases h
    | ok found =>
      simp only [Program.runAmong_bind, Program.runAmong_apply, Program.runAmong_pure,
        Prod.mk.injEq, Except.ok.injEq, Option.some.injEq] at h
      obtain ⟨rfl, -, rfl⟩ := h
      rw [hothers]
      rfl

/-- A reconciliation lowers the flag whatever came in while it waited for the node; afterwards the
connection is flagged exactly if a message that refers to others is admitted after it. -/
theorem flagged_after_reconciliation_iff {settings : Settings} {u : Uri} {e e' : Surroundings}
    {s s' : Session} {r : Reconciliation}
    (h : (refreshAgreements settings u).runAmong e s = (.ok (some r), e', s')) :
    ∃ inputs claimed, claimAgreement u (s.moves (e.others 0)) = (.ok (some inputs), claimed) ∧
      s' = (claimed.moves (e.others 1)).apply (.agreementReconciled u r.view r.fetched) ∧
      (claimed.Throughout (Session.Unreconciled u) (e.others 1) →
        claimed.signals u (e.others 1) = true →
        u ∈ (claimed.moves (e.others 1)).staleConnections) ∧
      u ∉ s'.staleConnections ∧
      ∀ later, s'.Throughout (Session.Unreconciled u) later →
        (u ∈ (s'.moves later).staleConnections ↔ s'.signals u later = true) := by
  obtain ⟨inputs, claimed, hclaim, hs'⟩ := runAmong_refreshAgreements h
  have hlowered : u ∉ s'.staleConnections := by
    rw [hs']
    exact Session.not_mem_staleConnections_of_reconciled _ u r.view r.fetched
  refine ⟨inputs, claimed, hclaim, hs', fun hwindow hsignal => ?_, hlowered, fun later hlater => ?_⟩
  · exact (Session.mem_staleConnections_moves_iff hwindow).2 (Or.inr hsignal)
  · rw [Session.mem_staleConnections_moves_iff hlater, or_iff_right hlowered]

/-! ## A proposal that comes in while the node is asked -/

def quietConnection : Session :=
  { Session.start 3 with
    connections := (∅ : UriMap Connection).insert ⟨"c"⟩
      (.fresh ⟨"own"⟩ ⟨"own#s"⟩ ⟨"peer#s"⟩ (.resume .connected)) }

def emptyNode : Node
  | .fetchProtocolSets _ => .ok ServerSets.empty
  | _ => .error ⟨none, "unreachable"⟩

/-- The counterpart proposes something under a name. -/
def arrivingProposal (name : String) : Move :=
  .event (.messageReceived ⟨"c"⟩
    (.chat ⟨name⟩ .incoming (References.none.insert .proposes ⟨"x"⟩)))

/-- A proposal comes in after the inputs were taken. -/
def proposalInWindow : Surroundings :=
  { Surroundings.alone ⟨"e", 0⟩ emptyNode with
    others := fun n => if n = 1 then [arrivingProposal "p"] else [] }

def reconciledAcross : Except SessionError (Option Reconciliation) × Surroundings × Session :=
  (refreshAgreements .default ⟨"c"⟩).runAmong proposalInWindow quietConnection

theorem reconciledAcross_ok : ∃ r, reconciledAcross.1 = .ok (some r) := by
  have h : reconciledAcross.1.toOption.join.isSome = true := by decide +kernel
  rcases hr : reconciledAcross.1 with f | _ | r
  · rw [hr] at h
    cases h
  · rw [hr] at h
    cases h
  · exact ⟨r, rfl⟩

theorem flagged_after_reconciliation_iff_window :
    ∃ r, reconciledAcross.1 = .ok (some r) ∧ ⟨"c"⟩ ∉ reconciledAcross.2.2.staleConnections ∧
      ⟨"c"⟩ ∈ (reconciledAcross.2.2.moves [arrivingProposal "q"]).staleConnections := by
  obtain ⟨r, hr⟩ := reconciledAcross_ok
  obtain ⟨inputs, claimed, -, -, -, hlost, hlater⟩ :=
    flagged_after_reconciliation_iff (show reconciledAcross = (_, _, _) from Prod.ext hr rfl)
  refine ⟨r, hr, hlost, (hlater [arrivingProposal "q"] ⟨⟨?_, rfl⟩, trivial⟩).2 ?_⟩
  · decide +kernel
  · decide +kernel

/-- A proposal that comes in after the inputs were taken and before the view is stored leaves no
signal: it is stored, and the connection is not flagged. -/
theorem signal_of_window_lost :
    ∃ r inputs claimed c, reconciledAcross.1 = .ok (some r) ∧
      claimAgreement ⟨"c"⟩ quietConnection = (.ok (some inputs), claimed) ∧
      claimed.signals ⟨"c"⟩ [arrivingProposal "p"] = true ∧
      reconciledAcross.2.2 = (claimed.moves [arrivingProposal "p"]).apply
        (.agreementReconciled ⟨"c"⟩ r.view r.fetched) ∧
      reconciledAcross.2.2.connections.get? ⟨"c"⟩ = some c ∧
      (c.store.get? ⟨"p"⟩).isSome = true ∧ c.agreementStale = false := by
  obtain ⟨r, hr⟩ := reconciledAcross_ok
  obtain ⟨inputs, claimed, hclaim, hrun⟩ :=
    runAmong_refreshAgreements (show reconciledAcross = (_, _, _) from Prod.ext hr rfl)
  have hclaimed : claimed = (claimAgreement ⟨"c"⟩ quietConnection).2 :=
    (congrArg Prod.snd hclaim).symm
  refine ⟨r, inputs, claimed, _, hr, hclaim, ?_, hrun, Option.eq_some_of_isSome ?_, ?_, ?_⟩
  · rw [hclaimed]
    decide +kernel
  · decide +kernel
  · decide +kernel
  · decide +kernel

end Call

end Parley
