/-
The view that the local messages give, beside the one that is reconciled with the server. The
statuses that the local view selects by exclude each other, so its sets are sorted as reconciling
sorts them, and it has no revoked proposal to drop. If the server answers with the sets of the local
view, reconciling leaves them as they are.

The entries of a local view are stored messages, so none of them is asked for. Where none is an own
copy that leads on to its counterpart, each entry is resolved to itself, as the local view has it.
-/
import Parley.Proofs.Agreement.Settlement
import Parley.Proofs.Negotiation.Effect
import Parley.Agreement.Local

namespace Parley

/-! ## Sets that reconciling leaves as they are -/

namespace AgreementView

/-- The open entries are sorted, no agreement is cancelled and no proposal is revoked. -/
structure IsSettled (v : AgreementView) : Prop where
  sortsEntries : v.SortsEntries
  agreed : ∀ u ∈ v.agreements, u ∉ v.cancelled
  proposed : ∀ u ∈ v.pendingProposals, u ∉ v.rejected ∧ u ∉ v.retracted

variable {v : AgreementView}

theorem withoutRevoked_eq_self (h : ∀ u ∈ v.pendingProposals, u ∉ v.rejected ∧ u ∉ v.retracted) :
    v.withoutRevoked = v := by
  have hproposals : (v.pendingProposals.filter fun u => !v.isRevoked u) = v.pendingProposals :=
    UriSet.ext_mem fun u => mem_pendingProposals_withoutRevoked.trans (and_iff_left_of_imp (h u))
  have hrefs : (v.refs.filter fun u _ => !(u ∈ v.pendingProposals && v.isRevoked u)) = v.refs := by
    refine UriMap.ext_get? fun u => ?_
    have hkept : (u ∈ v.pendingProposals && v.isRevoked u) = false := by
      by_cases hu : u ∈ v.pendingProposals
      · simp [isRevoked, h u hu]
      · simp [hu]
    rw [UriMap.get?_filter, hkept]
    cases v.refs.get? u <;> simp
  unfold withoutRevoked
  rw [hproposals, hrefs]

theorem hasRevoked_eq_false (h : ∀ u ∈ v.pendingProposals, u ∉ v.rejected ∧ u ∉ v.retracted) :
    v.hasRevoked = false := by
  rw [← Bool.not_eq_true, ← size_withoutRevoked_lt_iff, withoutRevoked_eq_self h]
  exact Nat.lt_irrefl _

end AgreementView

namespace ServerSets

/-- The server's sets that a view is made of are the sets of the view. -/
structure Lists (sets : ServerSets) (v : AgreementView) : Prop where
  agreements : sets.agreementUris = v.agreements
  pendingProposals : sets.pendingProposalUris = v.pendingProposals
  cancellationPending : sets.cancellationPendingAgreementUris = v.cancellationPending
  cancelled : sets.cancelledAgreementUris = v.cancelled
  acceptedCancellations : sets.acceptedCancellationProposalUris = v.acceptedCancellations
  rejected : sets.rejectedMessageUris = v.rejected
  retracted : sets.retractedMessageUris = v.retracted

/-- Sorted sets need no sorting. -/
theorem Lists.view_eq {sets : ServerSets} {v : AgreementView} (h : sets.Lists v)
    (hv : v.SortsEntries) : sets.view = { v with refs := ∅ } := by
  have hagreed : v.agreements.diff v.cancellationPending = v.agreements :=
    UriSet.diff_eq_self hv.agreed
  have hproposed : (v.pendingProposals.diff v.cancellationPending).diff v.agreements =
      v.pendingProposals := by
    rw [UriSet.diff_eq_self fun u hu => (hv.proposed u hu).1,
      UriSet.diff_eq_self fun u hu => (hv.proposed u hu).2]
  unfold view
  simp only [h.agreements, h.pendingProposals, h.cancellationPending, h.cancelled,
    h.acceptedCancellations, h.rejected, h.retracted, hagreed, hproposed]

end ServerSets

/-- Reconciling the sets of a settled view resolves its entries and does nothing else to it. -/
theorem ofFindings_of_settled {sets : ServerSets} {v : AgreementView} (h : sets.Lists v)
    (hv : v.IsSettled) (f : Resolver.Findings) (previous : Option AgreementView) :
    (Reconciliation.ofFindings sets f previous).view = { v with refs := f.refs } ∧
      (Reconciliation.ofFindings sets f previous).pruned = false := by
  unfold Reconciliation.ofFindings
  rw [h.view_eq hv.sortsEntries]
  exact ⟨AgreementView.withoutRevoked_eq_self hv.proposed,
    AgreementView.hasRevoked_eq_false hv.proposed⟩

/-! ## Entries that are resolved to themselves -/

theorem Message.nextCopy?_eq_none_iff {m : Message} {ownAtom : Uri} :
    m.nextCopy? ownAtom = none ↔
      ¬ (m.direction = .outgoing ∧ m.recipient? = some ownAtom ∧ m.remoteUri.isSome = true) := by
  simp only [Option.eq_none_iff_forall_ne_some, ne_eq, nextCopy?_eq_some_iff,
    Option.isSome_iff_exists]
  constructor
  · rintro h ⟨hown, hrecipient, u, hu⟩
    exact h u ⟨hown, hrecipient, hu⟩
  · rintro h u ⟨hown, hrecipient, hu⟩
    exact h ⟨hown, hrecipient, u, hu⟩

namespace Resolver

variable {r : Resolver}

/-- A stored message that is no own copy is its own first and last copy. -/
theorem resolve_of_found {u : Uri} {m : Message} (hm : r.store.find? u = some m) (hu : m.uri = u)
    (hnext : m.nextCopy? r.ownAtom = none) (hdepth : 0 < r.maxDepth) (cache : UriMap Message) :
    r.resolve u cache = .done (.ok (.single u), cache) := by
  obtain ⟨steps, hsteps⟩ := Nat.exists_eq_succ_of_ne_zero (Nat.ne_of_gt hdepth)
  have hlookUp : r.lookUp u cache = .done (.ok m, cache) := by
    unfold lookUp
    simp only [hm, Option.some_or]
  unfold resolve
  rw [hsteps, follow, if_neg List.not_mem_nil, hlookUp]
  simp only [Inquiry.bind, hnext, hu, Option.getD_none]
  rfl

theorem resolveAll_of_single (us : List Uri) : ∀ f : Findings,
    (∀ u ∈ us, ∀ cache, r.resolve u cache = .done (.ok (.single u), cache)) →
      r.resolveAll us f =
        .done { f with refs := us.foldl (fun refs u => refs.insert u (.single u)) f.refs } := by
  induction us with
  | nil => exact fun f _ => rfl
  | cons u us ih =>
    intro f h
    unfold resolveAll
    rw [h u List.mem_cons_self]
    exact ih (f.record u (.ok (.single u), f.cache)) fun v hv => h v (List.mem_cons_of_mem u hv)

end Resolver

/-! ## What the local view says of a stored message -/

namespace Backlinks

open Rules

section

variable {s : Store} (hs : s.Coherent) {m : Message} (hm : m ∈ s.toList)
include hs hm

/-- No other message has the name. -/
theorem uri_mem_select_iff {p : Message → MessageStatus → Bool} :
    m.uri ∈ s.backlinks.select p ↔ p m (s.backlinks.status m) = true := by
  rw [mem_select]
  constructor
  · rintro ⟨n, hn, hp, hu⟩
    rw [← hs.eq_of_uri_eq hn hm hu]
    exact hp
  · exact fun hp => ⟨m, hm, hp, rfl⟩

theorem mem_agreements_iff :
    m.uri ∈ s.backlinks.localView.agreements ↔ Agreed s.toList m :=
  (uri_mem_select_iff hs hm).trans (agreed_iff hs)

theorem mem_cancellationPending_iff :
    m.uri ∈ s.backlinks.localView.cancellationPending ↔ CancellationPending s.toList m :=
  (uri_mem_select_iff hs hm).trans (cancellationPending_iff hs)

theorem mem_cancelled_iff : m.uri ∈ s.backlinks.localView.cancelled ↔ Cancelled s.toList m :=
  (uri_mem_select_iff hs hm).trans (cancelled_iff hs)

theorem mem_rejected_iff : m.uri ∈ s.backlinks.localView.rejected ↔ Rejected s.toList m :=
  (uri_mem_select_iff hs hm).trans (status_describes hs m).rejected

theorem mem_retracted_iff : m.uri ∈ s.backlinks.localView.retracted ↔ Retracted s.toList m :=
  (uri_mem_select_iff hs hm).trans (status_describes hs m).retracted

theorem mem_acceptedCancellations_iff :
    m.uri ∈ s.backlinks.localView.acceptedCancellations ↔
      Accepted s.toList m ∧ m.references.has .proposesToCancel = true := by
  refine (uri_mem_select_iff hs hm).trans ?_
  rw [Bool.and_eq_true, accepted_iff hs]

/-- A pending proposal is decided in no way. -/
theorem undecided_of_mem_pendingProposals
    (h : m.uri ∈ s.backlinks.localView.pendingProposals) :
    Stands s.toList m ∧ ¬ Accepted s.toList m := by
  have hopen := (uri_mem_select_iff hs hm).1 h
  rw [Bool.and_eq_true, Message.isOpenOffer, Bool.and_eq_true, Bool.not_eq_true'] at hopen
  exact (status_describes hs m).isDecided_eq_false_iff.1 hopen.1.2

end

section

variable {s : Store}

theorem exists_of_isOpen {u : Uri} (h : s.backlinks.localView.IsOpen u) :
    ∃ m ∈ s.toList, m.uri = u := by
  have hselected {p : Message → MessageStatus → Bool} (hu : u ∈ s.backlinks.select p) :
      ∃ m ∈ s.toList, m.uri = u := by
    obtain ⟨m, hm, -, rfl⟩ := mem_select.1 hu
    exact ⟨m, hm, rfl⟩
  rcases h with hu | hu | hu
  · exact hselected hu
  · exact hselected hu
  · exact hselected hu

variable (hs : s.Coherent)
include hs

theorem localView_isSettled : s.backlinks.localView.IsSettled := by
  have hagreed {u : Uri} (hu : u ∈ s.backlinks.localView.agreements) :
      ∃ m ∈ s.toList, m.uri = u ∧ Agreed s.toList m := by
    obtain ⟨m, hm, -, rfl⟩ := mem_select.1 hu
    exact ⟨m, hm, rfl, (mem_agreements_iff hs hm).1 hu⟩
  have hproposed {u : Uri} (hu : u ∈ s.backlinks.localView.pendingProposals) :
      ∃ m ∈ s.toList, m.uri = u ∧ Stands s.toList m ∧ ¬ Accepted s.toList m := by
    obtain ⟨m, hm, -, rfl⟩ := mem_select.1 hu
    exact ⟨m, hm, rfl, undecided_of_mem_pendingProposals hs hm hu⟩
  -- a member of one set is a message of which the rules exclude the other
  refine ⟨⟨fun u hu => ?_, fun u hu => ?_⟩, fun u hu => ?_, fun u hu => ?_⟩
  · obtain ⟨m, hm, rfl, -, -, hpending⟩ := hagreed hu
    rw [mem_cancellationPending_iff hs hm]
    exact hpending
  · obtain ⟨m, hm, rfl, -, hacc⟩ := hproposed hu
    rw [mem_cancellationPending_iff hs hm, mem_agreements_iff hs hm]
    exact ⟨fun h => hacc h.1, fun h => hacc h.1⟩
  · obtain ⟨m, hm, rfl, -, hcancelled, -⟩ := hagreed hu
    rw [mem_cancelled_iff hs hm]
    exact hcancelled
  · obtain ⟨m, hm, rfl, hstands, -⟩ := hproposed hu
    rw [mem_rejected_iff hs hm, mem_retracted_iff hs hm]
    exact hstands

/-- A cancelled message has a cancellation that was accepted. -/
theorem exists_cancellation_of_mem_cancelled {u : Uri}
    (h : u ∈ s.backlinks.localView.cancelled) :
    ∃ m ∈ s.toList, m.uri = u ∧ ∃ c ∈ s.toList,
      c.uri ∈ s.backlinks.localView.acceptedCancellations ∧ Cancellation s.toList c m := by
  obtain ⟨m, hm, -, rfl⟩ := mem_select.1 h
  obtain ⟨-, c, hc, hacc⟩ := (mem_cancelled_iff hs hm).1 h
  have hcancels : c.references.has .proposesToCancel = true := by
    rcases hc.2.2 with hrefers | ⟨a, -, hrefers⟩
    · exact hrefers.has
    · exact hrefers.has
  exact ⟨m, hm, rfl, c, hc.1, (mem_acceptedCancellations_iff hs hc.1).2 ⟨hacc, hcancels⟩, hc⟩

end

theorem contains_refs_localView (b : Backlinks) (u : Uri) :
    b.localView.refs.contains u = true ↔ b.localView.IsOpen u := by
  refine UriMap.contains_ofList.trans ?_
  rw [List.map_map, ← AgreementView.mem_openEntries]
  exact Iff.of_eq (congrArg (u ∈ ·) (List.map_id _))

/-- Reconciling over the store of a local view resolves its entries to themselves, if no own copy is
among them. -/
theorem resolveAll_localView {s : Store} (hs : s.Coherent) {ownAtom : Uri} {depth : Nat}
    (hdepth : 0 < depth)
    (hcopies : ∀ m ∈ s.toList, s.backlinks.localView.IsOpen m.uri →
      m.nextCopy? ownAtom = none) :
    (Resolver.mk ownAtom s depth).resolveAll s.backlinks.localView.openEntries .none =
      .done ⟨s.backlinks.localView.refs, ∅, ∅⟩ := by
  rw [Resolver.resolveAll_of_single]
  · have hrefs : s.backlinks.localView.refs =
        (s.backlinks.localView.openEntries.map fun u => (u, ChainEnds.single u)).foldl
          (fun refs e => refs.insert e.1 e.2) ∅ := rfl
    rw [hrefs, List.foldl_map]
    rfl
  · intro u hu cache
    have hopen := AgreementView.mem_openEntries.1 hu
    obtain ⟨m, hm, rfl⟩ := exists_of_isOpen hopen
    exact Resolver.resolve_of_found (hs.find?_uri hm) rfl (hcopies m hm hopen) hdepth cache

/-- The sets of a local view exclude each other, exactly its open entries are resolved in it, and
each cancelled message has a cancellation that was accepted. If the server answers with the sets of
the local view, then reconciling over the same store gives them back, whatever else is answered; and
if no open entry is an own copy that leads on to its counterpart, it gives back the whole view,
without asking for an event and without a failure. -/
theorem localView_reconciles {s : Store} (hs : s.Reachable) :
    s.backlinks.localView.IsSettled ∧
    (∀ u, s.backlinks.localView.refs.contains u = true ↔ s.backlinks.localView.IsOpen u) ∧
    (∀ u ∈ s.backlinks.localView.cancelled, ∃ m ∈ s.toList, m.uri = u ∧ ∃ c ∈ s.toList,
      c.uri ∈ s.backlinks.localView.acceptedCancellations ∧ Cancellation s.toList c m) ∧
    ∀ (connection ownAtom : Uri) (maxDepth : Nat) (previous : Option AgreementView)
      (source : List Question → Inquiry.Source) (past : List Question) (sets : ServerSets),
      source past (.sets connection) = .ok sets → sets.Lists s.backlinks.localView →
      ∃ rec asked, (reconcile connection ownAtom s maxDepth previous).runAfter source past =
          (.ok rec, asked) ∧
        rec.view.SameSets s.backlinks.localView ∧ rec.pruned = false ∧
        ((∀ m ∈ s.toList, s.backlinks.localView.IsOpen m.uri →
            ¬ (m.direction = .outgoing ∧ m.recipient? = some ownAtom ∧
              m.remoteUri.isSome = true)) →
          rec.view = s.backlinks.localView ∧ rec.fetched = [] ∧ rec.failures = ∅ ∧
            asked = past ++ [.sets connection]) := by
  have hsettled := localView_isSettled hs.coherent
  refine ⟨hsettled, contains_refs_localView _,
    fun u => exists_cancellation_of_mem_cancelled hs.coherent, ?_⟩
  intro connection ownAtom maxDepth previous source past sets hsource hlists
  have hopen : sets.view.openEntries = s.backlinks.localView.openEntries := by
    rw [hlists.view_eq hsettled.sortsEntries]
    rfl
  rw [runAfter_reconcile hsource, Inquiry.runAfter_bind, hopen]
  have hview := ofFindings_of_settled hlists hsettled
  refine ⟨_, _, rfl, ?_, (hview _ _).2, fun hcopies => ?_⟩
  · rw [(hview _ _).1]
    exact ⟨rfl, rfl, rfl, rfl, rfl, rfl, rfl⟩
  · rw [resolveAll_localView hs.coherent (Nat.lt_of_lt_of_le Nat.one_pos (Nat.le_max_right _ _))
      fun m hm hu => Message.nextCopy?_eq_none_iff.2 (hcopies m hm hu)]
    exact ⟨(hview _ _).1, List.mergeSort_nil, rfl, rfl⟩

/-- A source that has the sets of the local view, and no event. -/
def localServer (b : Backlinks) : Inquiry.Source
  | .sets _ => .ok
    { ServerSets.empty with
      agreementUris := b.localView.agreements
      pendingProposalUris := b.localView.pendingProposals
      cancellationPendingAgreementUris := b.localView.cancellationPending
      cancelledAgreementUris := b.localView.cancelled
      acceptedCancellationProposalUris := b.localView.acceptedCancellations
      rejectedMessageUris := b.localView.rejected
      retractedMessageUris := b.localView.retracted }
  | .event _ u => .error (.fetch u (some 404) "not found")

/-- Proposals of every outcome: `p` is cancelled and `a` agreed, the cancellation of `f` is proposed,
`o` is pending, `r` rejected and `t` retracted. -/
def everyOutcome : Store :=
  .ofList
    [.chat ⟨"p"⟩ .outgoing (References.none.insert .proposes ⟨"terms"⟩),
      .chat ⟨"q"⟩ .incoming (References.none.insert .accepts ⟨"p"⟩),
      .chat ⟨"c"⟩ .incoming (References.none.insert .proposesToCancel ⟨"q"⟩),
      .chat ⟨"d"⟩ .outgoing (References.none.insert .accepts ⟨"c"⟩),
      .chat ⟨"a"⟩ .incoming (References.none.insert .proposes ⟨"terms"⟩),
      .chat ⟨"b"⟩ .outgoing (References.none.insert .accepts ⟨"a"⟩),
      .chat ⟨"f"⟩ .incoming (References.none.insert .proposes ⟨"terms"⟩),
      .chat ⟨"g"⟩ .outgoing
        ((References.none.insert .accepts ⟨"f"⟩).insert .proposesToCancel ⟨"f"⟩),
      .chat ⟨"o"⟩ .outgoing (References.none.insert .proposes ⟨"terms"⟩),
      .chat ⟨"r"⟩ .outgoing (References.none.insert .proposes ⟨"terms"⟩),
      .chat ⟨"s"⟩ .incoming (References.none.insert .rejects ⟨"r"⟩),
      .chat ⟨"t"⟩ .outgoing (References.none.insert .proposes ⟨"terms"⟩),
      .chat ⟨"w"⟩ .outgoing (References.none.insert .retracts ⟨"t"⟩)]

theorem localView_reconciles_everyOutcome :
    everyOutcome.Reachable ∧
      (everyOutcome.backlinks.localView.agreements = .ofList [⟨"a"⟩, ⟨"c"⟩] ∧
        everyOutcome.backlinks.localView.pendingProposals = .ofList [⟨"o"⟩] ∧
        everyOutcome.backlinks.localView.cancellationPending = .ofList [⟨"f"⟩] ∧
        everyOutcome.backlinks.localView.cancelled = .ofList [⟨"p"⟩] ∧
        everyOutcome.backlinks.localView.acceptedCancellations = .ofList [⟨"c"⟩] ∧
        everyOutcome.backlinks.localView.rejected = .ofList [⟨"r"⟩] ∧
        everyOutcome.backlinks.localView.retracted = .ofList [⟨"t"⟩]) ∧
      ∃ rec, (reconcile ⟨"connection"⟩ ⟨"own"⟩ everyOutcome 8 none).runAfter
          (fun _ => everyOutcome.backlinks.localServer) [] =
            (.ok rec, [.sets ⟨"connection"⟩]) ∧
        rec.view = everyOutcome.backlinks.localView ∧
        rec.view.refs.get? ⟨"o"⟩ = some (.single ⟨"o"⟩) ∧ rec.view.refs.get? ⟨"r"⟩ = none := by
  have hs : everyOutcome.Reachable := Store.reachable_ofList _
  obtain ⟨-, -, -, hreconciles⟩ := localView_reconciles hs
  obtain ⟨rec, asked, hrun, -, -, hsame⟩ := hreconciles ⟨"connection"⟩ ⟨"own"⟩ 8 none
    (fun _ => everyOutcome.backlinks.localServer) [] _ rfl ⟨rfl, rfl, rfl, rfl, rfl, rfl, rfl⟩
  -- without a recipient there is no own copy
  have hnone : ∀ m ∈ everyOutcome.toList, m.recipient? = none := by decide +kernel
  obtain ⟨hview, -, -, rfl⟩ := hsame fun m hm _ hown => by
    rw [hnone m hm] at hown
    cases hown.2.1
  refine ⟨hs, ?_, rec, hrun, hview, ?_⟩
  · decide +kernel
  · rw [hview]
    decide +kernel

end Backlinks

end Parley
