/-
What a reconciliation settles. It fails exactly if the server's sets cannot be had. Otherwise its
seven sets are a function of the server's sets alone: entries being cancelled are taken out of the
agreements, these two out of the proposals, and what was rejected or retracted out of the rest.
Whatever the source answers about single events, every open entry is either resolved or reported,
never both, and nothing else is resolved.

The entries are resolved one after another. As they are distinct, each outcome is recorded under a
name that has none yet, so what is recorded always covers the entries done so far.
-/
import Parley.Agreement.Reconcile
import Parley.Proofs.Store.Backlinks

namespace Parley

/-! ## Sources whose answers vary -/

namespace Inquiry

variable {α β : Type}

/-- The result, and the questions asked, when every answer may depend on the questions before. -/
def runAfter (source : List Question → Source) : Inquiry α → List Question → α × List Question
  | .done a, past => (a, past)
  | .ask q next, past => (next (source past q)).runAfter source (past ++ [q])

theorem runAfter_bind (source : List Question → Source) (i : Inquiry α) (f : α → Inquiry β)
    (past : List Question) :
    (i.bind f).runAfter source past =
      (f (i.runAfter source past).1).runAfter source (i.runAfter source past).2 := by
  induction i generalizing past with
  | done a => rfl
  | ask q next ih => exact ih (source past q) (past ++ [q])

/-- A source that does not look at the questions before answers as a plain one. -/
theorem runAfter_constant (source : Source) (i : Inquiry α) (past : List Question) :
    i.runAfter (fun _ => source) past = (i.run source, past ++ i.questions source) := by
  induction i generalizing past with
  | done a => simp [runAfter, run, questions]
  | ask q next ih => simp [runAfter, run, questions, ih]

end Inquiry

/-! ## Resolving all entries -/

namespace Resolver

/-- The findings tell of each entry of a list either its chain or why it has none, and of no other
entry anything. -/
structure Findings.Covers (f : Findings) (us : List Uri) : Prop where
  either : ∀ u ∈ us, f.refs.contains u = !f.failures.contains u
  only : ∀ u, u ∉ us → f.refs.contains u = false ∧ f.failures.contains u = false

theorem none_covers : Findings.none.Covers [] :=
  ⟨fun _ h => absurd h List.not_mem_nil, fun _ _ => ⟨rfl, rfl⟩⟩

theorem Findings.Covers.record {f : Findings} {us : List Uri} (h : f.Covers us) {u : Uri}
    (hu : u ∉ us) (outcome : Outcome) : (f.record u outcome).Covers (us ++ [u]) := by
  obtain ⟨hrefs, hfailures⟩ := h.only u hu
  obtain ⟨result, cache⟩ := outcome
  constructor
  case either =>
    intro v hv
    by_cases hvu : v = u
    · subst hvu
      cases result <;> simp [Findings.record, hrefs, hfailures]
    · have hold := h.either v (by simpa [hvu] using hv)
      cases result <;> simp [Findings.record, hvu, hold]
  case only =>
    intro v hv
    simp only [List.mem_append, List.mem_singleton, not_or] at hv
    cases result <;> simp [Findings.record, hv.2, h.only v hv.1]

theorem resolveAll_covers (r : Resolver) (source : List Question → Inquiry.Source)
    (us : List Uri) : ∀ (f : Findings) (past : List Question) (before : List Uri),
      f.Covers before → (before ++ us).Nodup →
        ((r.resolveAll us f).runAfter source past).1.Covers (before ++ us) := by
  induction us with
  | nil =>
    intro f past before hf _
    rw [List.append_nil]
    exact hf
  | cons u us ih =>
    intro f past before hf hnodup
    unfold resolveAll
    rw [Inquiry.runAfter_bind, List.append_cons]
    rw [List.append_cons] at hnodup
    have hu : u ∉ before := by
      intro hmem
      have hleft := (List.nodup_append.1 hnodup).1
      exact (List.nodup_append.1 hleft).2.2 u hmem u (by simp) rfl
    exact ih _ _ _ (hf.record hu _) hnodup

end Resolver

/-! ## The open entries -/

/-- The server names an entry as agreed, proposed or being cancelled. -/
def ServerSets.IsOpen (sets : ServerSets) (u : Uri) : Prop :=
  u ∈ sets.agreementUris ∨ u ∈ sets.pendingProposalUris ∨
    u ∈ sets.cancellationPendingAgreementUris

namespace AgreementView

/-- An entry is agreed, proposed or being cancelled. -/
def IsOpen (v : AgreementView) (u : Uri) : Prop :=
  u ∈ v.agreements ∨ u ∈ v.pendingProposals ∨ u ∈ v.cancellationPending

/-- Two views have the same seven sets. -/
structure SameSets (v w : AgreementView) : Prop where
  agreements : v.agreements = w.agreements
  pendingProposals : v.pendingProposals = w.pendingProposals
  cancellationPending : v.cancellationPending = w.cancellationPending
  cancelled : v.cancelled = w.cancelled
  acceptedCancellations : v.acceptedCancellations = w.acceptedCancellations
  rejected : v.rejected = w.rejected
  retracted : v.retracted = w.retracted

/-- No entry is in two of the three sets of open entries. -/
structure SortsEntries (v : AgreementView) : Prop where
  agreed : ∀ u ∈ v.agreements, u ∉ v.cancellationPending
  proposed : ∀ u ∈ v.pendingProposals, u ∉ v.cancellationPending ∧ u ∉ v.agreements

variable {v : AgreementView} {u : Uri}

theorem mem_openEntries : u ∈ v.openEntries ↔ v.IsOpen u := by
  simp [openEntries, IsOpen, UriSet.mem_def]

theorem SortsEntries.nodup_openEntries (h : v.SortsEntries) : v.openEntries.Nodup := by
  unfold openEntries
  rw [List.nodup_append, List.nodup_append]
  refine ⟨⟨UriSet.toList_nodup _, UriSet.toList_nodup _, ?_⟩, UriSet.toList_nodup _, ?_⟩
  · rintro u hu v hv rfl
    exact (h.proposed u hv).2 hu
  · rintro u hu v hv rfl
    rcases List.mem_append.1 hu with hu | hu
    · exact h.agreed u hu hv
    · exact (h.proposed u hu).1 hv

theorem mem_pendingProposals_withoutRevoked :
    u ∈ v.withoutRevoked.pendingProposals ↔
      u ∈ v.pendingProposals ∧ u ∉ v.rejected ∧ u ∉ v.retracted := by
  simp [withoutRevoked, isRevoked]

theorem SortsEntries.withoutRevoked (h : v.SortsEntries) : v.withoutRevoked.SortsEntries :=
  ⟨h.agreed, fun u hu => h.proposed u (mem_pendingProposals_withoutRevoked.1 hu).1⟩

/-- Of the open entries, exactly the revoked proposals are dropped. -/
theorem SortsEntries.isOpen_withoutRevoked (h : v.SortsEntries) :
    v.withoutRevoked.IsOpen u ↔
      v.IsOpen u ∧ (u ∈ v.pendingProposals && v.isRevoked u) = false := by
  have hkept : (u ∈ v.pendingProposals && v.isRevoked u) = false ↔
      (u ∈ v.pendingProposals → u ∉ v.rejected ∧ u ∉ v.retracted) := by
    simp [isRevoked]
  rw [hkept]
  unfold IsOpen
  rw [mem_pendingProposals_withoutRevoked]
  constructor
  · rintro (hu | ⟨hu, hnot⟩ | hu)
    · exact ⟨Or.inl hu, fun hp => absurd hu (h.proposed u hp).2⟩
    · exact ⟨Or.inr (Or.inl hu), fun _ => hnot⟩
    · exact ⟨Or.inr (Or.inr hu), fun hp => absurd hu (h.proposed u hp).1⟩
  · rintro ⟨hu | hu | hu, hnot⟩
    · exact Or.inl hu
    · exact Or.inr (Or.inl ⟨hu, hnot hu⟩)
    · exact Or.inr (Or.inr hu)

/-- What is known about an entry that is dropped is dropped with it. -/
theorem contains_refs_withoutRevoked :
    v.withoutRevoked.refs.contains u =
      (v.refs.contains u && !(u ∈ v.pendingProposals && v.isRevoked u)) :=
  UriMap.contains_filter v.refs (fun u => !(u ∈ v.pendingProposals && v.isRevoked u)) u

/-- The pending proposals shrink exactly if one of them is revoked. -/
theorem size_withoutRevoked_lt_iff :
    v.withoutRevoked.pendingProposals.size < v.pendingProposals.size ↔ v.hasRevoked = true := by
  unfold AgreementView.withoutRevoked hasRevoked UriSet.size UriSet.filter
  rw [List.length_filter_lt_length_iff_exists, List.any_eq_true]
  simp

end AgreementView

namespace ServerSets

theorem view_sortsEntries (sets : ServerSets) : sets.view.SortsEntries where
  agreed u hu := (UriSet.mem_diff.1 hu).2
  proposed u hu := by
    obtain ⟨hu, hagreed⟩ := UriSet.mem_diff.1 hu
    exact ⟨(UriSet.mem_diff.1 hu).2, hagreed⟩

/-- Sorting the entries into one set each loses none of them. -/
theorem isOpen_view_iff {sets : ServerSets} {u : Uri} : sets.view.IsOpen u ↔ sets.IsOpen u := by
  have hagreed : u ∈ sets.view.agreements ↔
      u ∈ sets.agreementUris ∧ u ∉ sets.cancellationPendingAgreementUris := UriSet.mem_diff
  have hproposed : u ∈ sets.view.pendingProposals ↔
      (u ∈ sets.pendingProposalUris ∧ u ∉ sets.cancellationPendingAgreementUris) ∧
        u ∉ sets.view.agreements :=
    UriSet.mem_diff.trans (and_congr_left' UriSet.mem_diff)
  have hcancelling : u ∈ sets.view.cancellationPending ↔
      u ∈ sets.cancellationPendingAgreementUris := Iff.rfl
  unfold AgreementView.IsOpen IsOpen
  rw [hproposed, hagreed, hcancelling]
  by_cases hc : u ∈ sets.cancellationPendingAgreementUris
  · simp [hc]
  · by_cases ha : u ∈ sets.agreementUris <;> simp [hc, ha]

end ServerSets

/-! ## Reconciling -/

namespace Reconciliation

/-- What a reconciliation makes of the server's sets: its seven sets are computed from them, no
entry is in two of the open ones, each open entry is either resolved or reported and no other one is
resolved, only an entry that the server names as open is reported, and it is said whether a
proposal was dropped at last because it was rejected or retracted. -/
structure Settles (rec : Reconciliation) (sets : ServerSets) : Prop where
  cancellationPending : rec.view.cancellationPending = sets.cancellationPendingAgreementUris
  agreements : rec.view.agreements = sets.agreementUris.diff rec.view.cancellationPending
  pendingProposals : rec.view.pendingProposals =
    (((sets.pendingProposalUris.diff rec.view.cancellationPending).diff rec.view.agreements).diff
      rec.view.rejected).diff rec.view.retracted
  cancelled : rec.view.cancelled = sets.cancelledAgreementUris
  acceptedCancellations : rec.view.acceptedCancellations = sets.acceptedCancellationProposalUris
  rejected : rec.view.rejected = sets.rejectedMessageUris
  retracted : rec.view.retracted = sets.retractedMessageUris
  sortsEntries : rec.view.SortsEntries
  either : ∀ u, rec.view.IsOpen u → rec.view.refs.contains u = !rec.failures.contains u
  refsOpen : ∀ u, rec.view.refs.contains u = true → rec.view.IsOpen u
  failuresOpen : ∀ u, rec.failures.contains u = true → sets.IsOpen u
  pruned : rec.pruned = true ↔ rec.view.pendingProposals.size <
    ((sets.pendingProposalUris.diff rec.view.cancellationPending).diff rec.view.agreements).size

/-- The seven sets of a reconciliation are determined by the server's sets. -/
theorem Settles.sameSets {rec rec' : Reconciliation} {sets : ServerSets} (h : rec.Settles sets)
    (h' : rec'.Settles sets) : rec.view.SameSets rec'.view where
  agreements := by
    rw [h.agreements, h'.agreements, h.cancellationPending, h'.cancellationPending]
  pendingProposals := by
    rw [h.pendingProposals, h'.pendingProposals, h.agreements, h'.agreements,
      h.cancellationPending, h'.cancellationPending, h.rejected, h'.rejected, h.retracted,
      h'.retracted]
  cancellationPending := h.cancellationPending.trans h'.cancellationPending.symm
  cancelled := h.cancelled.trans h'.cancelled.symm
  acceptedCancellations := h.acceptedCancellations.trans h'.acceptedCancellations.symm
  rejected := h.rejected.trans h'.rejected.symm
  retracted := h.retracted.trans h'.retracted.symm

/-- Findings that cover the open entries make a reconciliation that settles the sets. -/
theorem ofFindings_settles {sets : ServerSets} {f : Resolver.Findings}
    (hf : f.Covers sets.view.openEntries) (previous : Option AgreementView) :
    (ofFindings sets f previous).Settles sets := by
  let resolved : AgreementView := { sets.view with refs := f.refs }
  have hsorted : resolved.SortsEntries :=
    ⟨sets.view_sortsEntries.agreed, sets.view_sortsEntries.proposed⟩
  have hview : (ofFindings sets f previous).view = resolved.withoutRevoked := rfl
  -- an entry that was not open has no findings
  have hopen {found : Bool} {u : Uri} (hfound : found = true)
      (hnot : u ∉ sets.view.openEntries → found = false) : sets.view.IsOpen u := by
    by_contra hu
    rw [hnot fun hmem => hu (AgreementView.mem_openEntries.1 hmem)] at hfound
    cases hfound
  constructor
  case cancellationPending => rfl
  case agreements => rfl
  case pendingProposals =>
    refine UriSet.ext_mem fun u => ?_
    have hproposed : u ∈ resolved.pendingProposals ↔
        u ∈ (sets.pendingProposalUris.diff resolved.cancellationPending).diff
          resolved.agreements := Iff.rfl
    rw [hview, AgreementView.mem_pendingProposals_withoutRevoked, UriSet.mem_diff, UriSet.mem_diff,
      hproposed, and_assoc]
    rfl
  case cancelled => rfl
  case acceptedCancellations => rfl
  case rejected => rfl
  case retracted => rfl
  case sortsEntries => exact hsorted.withoutRevoked
  case either =>
    intro u hu
    obtain ⟨hu, hkept⟩ := hsorted.isOpen_withoutRevoked.1 hu
    rw [hview, AgreementView.contains_refs_withoutRevoked, hkept, Bool.not_false, Bool.and_true]
    exact hf.either u (AgreementView.mem_openEntries.2 hu)
  case refsOpen =>
    intro u hu
    rw [hview, AgreementView.contains_refs_withoutRevoked, Bool.and_eq_true,
      Bool.not_eq_true'] at hu
    exact hsorted.isOpen_withoutRevoked.2 ⟨hopen hu.1 fun h => (hf.only u h).1, hu.2⟩
  case failuresOpen =>
    intro u hu
    exact ServerSets.isOpen_view_iff.1 (hopen hu fun h => (hf.only u h).2)
  case pruned => exact AgreementView.size_withoutRevoked_lt_iff.symm

end Reconciliation

section

variable {connection ownAtom : Uri} {store : Store} {maxDepth : Nat}
  {previous : Option AgreementView} {source : List Question → Inquiry.Source}
  {past : List Question}

/-- The first question of a reconciliation is for the server's sets, and it fails with their
failure. -/
theorem reconcile_of_error {e : AgreementError} (h : source past (.sets connection) = .error e) :
    ((reconcile connection ownAtom store maxDepth previous).runAfter source past).1 = .error e := by
  unfold reconcile
  simp only [Inquiry.runAfter]
  rw [h]
  rfl

/-- Once it has the sets, a reconciliation resolves the open entries and goes on to its result. -/
theorem runAfter_reconcile {sets : ServerSets} (h : source past (.sets connection) = .ok sets) :
    (reconcile connection ownAtom store maxDepth previous).runAfter source past =
      (((Resolver.mk ownAtom store (max maxDepth 1)).resolveAll sets.view.openEntries .none).bind
        fun f => .done (.ok (.ofFindings sets f previous))).runAfter source
          (past ++ [.sets connection]) := by
  unfold reconcile
  simp only [Inquiry.runAfter]
  rw [h]

theorem reconcile_of_sets {sets : ServerSets} (h : source past (.sets connection) = .ok sets) :
    ∃ rec : Reconciliation,
      ((reconcile connection ownAtom store maxDepth previous).runAfter source past).1 = .ok rec ∧
        rec.Settles sets := by
  rw [runAfter_reconcile h, Inquiry.runAfter_bind]
  have hcovers := Resolver.resolveAll_covers ⟨ownAtom, store, max maxDepth 1⟩ source
    sets.view.openEntries .none (past ++ [.sets connection]) [] Resolver.none_covers
    sets.view_sortsEntries.nodup_openEntries
  exact ⟨_, rfl, Reconciliation.ofFindings_settles hcovers previous⟩

/-- A reconciliation that succeeds had the server's sets, and settles them. -/
theorem settles_of_reconciled {rec : Reconciliation}
    (hrec : ((reconcile connection ownAtom store maxDepth previous).runAfter source past).1 =
      .ok rec) :
    ∃ sets, source past (.sets connection) = .ok sets ∧ rec.Settles sets := by
  cases h : source past (.sets connection) with
  | error e => cases (reconcile_of_error h).symm.trans hrec
  | ok sets =>
    obtain ⟨rec', hrec', hs⟩ := reconcile_of_sets h
    cases hrec.symm.trans hrec'
    exact ⟨sets, rfl, hs⟩

end

/-- A reconciliation with a source that always answers in the same way asks for the sets, and then
what the entries need. -/
theorem run_reconcile {connection : Uri} {source : Inquiry.Source} {sets : ServerSets}
    (h : source (.sets connection) = .ok sets) (ownAtom : Uri) (store : Store) (maxDepth : Nat)
    (previous : Option AgreementView) :
    let resolved := (Resolver.mk ownAtom store (max maxDepth 1)).resolveAll sets.view.openEntries
      .none
    (reconcile connection ownAtom store maxDepth previous).run source =
        .ok (.ofFindings sets (resolved.run source) previous) ∧
      (reconcile connection ownAtom store maxDepth previous).questions source =
        .sets connection :: resolved.questions source := by
  unfold reconcile
  simp only [Inquiry.run, Inquiry.questions, h, Inquiry.run_bind, Inquiry.questions_bind,
    List.append_nil, and_self]

/-- Whatever a source answers, and even if it answers differently each time, a reconciliation fails
exactly if the server's sets cannot be had, and settles them otherwise. The seven sets are the same
for another own atom, store, depth and view before, and for a source that answers otherwise about
events. -/
theorem reconcile_settles (connection ownAtom : Uri) (store : Store) (maxDepth : Nat)
    (previous : Option AgreementView) (source : List Question → Inquiry.Source)
    (past : List Question) :
    (∀ e, ((reconcile connection ownAtom store maxDepth previous).runAfter source past).1 =
        .error e ↔ source past (.sets connection) = .error e) ∧
    (∀ rec, ((reconcile connection ownAtom store maxDepth previous).runAfter source past).1 =
        .ok rec →
      ∃ sets, source past (.sets connection) = .ok sets ∧ rec.Settles sets) ∧
    ∀ ownAtom' store' maxDepth' previous' source' past' rec rec',
      source' past' (.sets connection) = source past (.sets connection) →
      ((reconcile connection ownAtom store maxDepth previous).runAfter source past).1 = .ok rec →
      ((reconcile connection ownAtom' store' maxDepth' previous').runAfter source' past').1 =
        .ok rec' →
      rec'.view.SameSets rec.view := by
  refine ⟨fun e => ⟨fun hrun => ?_, reconcile_of_error⟩, fun rec => settles_of_reconciled, ?_⟩
  · cases h : source past (.sets connection) with
    | error e' =>
      cases (reconcile_of_error h).symm.trans hrun
      rfl
    | ok sets =>
      obtain ⟨rec, hrec, -⟩ := reconcile_of_sets h
      cases hrec.symm.trans hrun
  · intro ownAtom' store' maxDepth' previous' source' past' rec rec' hsame hrec hrec'
    obtain ⟨sets, hsets, hs⟩ := settles_of_reconciled hrec
    obtain ⟨sets', hsets', hs'⟩ := settles_of_reconciled hrec'
    cases hsets'.symm.trans (hsame.trans hsets)
    exact hs'.sameSets hs

/-- Sets that overlap: an agreement is proposed and being cancelled too, and of the proposals one is
agreed and one is rejected. -/
def overlappingSets : ServerSets :=
  { ServerSets.empty with
    agreementUris := .ofList [⟨"a"⟩, ⟨"b"⟩]
    pendingProposalUris := .ofList [⟨"a"⟩, ⟨"b"⟩, ⟨"p"⟩, ⟨"q"⟩]
    cancellationPendingAgreementUris := .ofList [⟨"b"⟩]
    rejectedMessageUris := .ofList [⟨"q"⟩] }

/-- A message of the counterpart, of which there is no further copy. -/
def receivedOffer : Message :=
  .chat ⟨"a"⟩ .incoming .none

/-- A source that has the overlapping sets and one event of their entries. -/
def oneEvent : Inquiry.Source
  | .sets _ => .ok overlappingSets
  | .event _ u =>
    if u = ⟨"a"⟩ then .ok receivedOffer else .error (.fetch u (some 404) "not found")

theorem reconcile_settles_overlappingSets :
    ∃ rec : Reconciliation,
      ((reconcile ⟨"c"⟩ ⟨"own"⟩ .empty 8 none).runAfter (fun _ => oneEvent) []).1 = .ok rec ∧
        rec.Settles overlappingSets ∧ rec.view.pendingProposals = .ofList [⟨"p"⟩] ∧
        rec.pruned = true ∧
        rec.view.refs.contains ⟨"a"⟩ = true ∧ rec.failures.contains ⟨"a"⟩ = false ∧
        rec.failures.contains ⟨"b"⟩ = true ∧ rec.view.refs.contains ⟨"b"⟩ = false ∧
        rec.failures.contains ⟨"q"⟩ = true ∧ ¬ rec.view.IsOpen ⟨"q"⟩ := by
  obtain ⟨-, hsettles, -⟩ :=
    reconcile_settles ⟨"c"⟩ ⟨"own"⟩ .empty 8 none (fun _ => oneEvent) []
  obtain ⟨rec, hrun, hresolved, hlost, hdropped⟩ : ∃ rec : Reconciliation,
      ((reconcile ⟨"c"⟩ ⟨"own"⟩ .empty 8 none).runAfter (fun _ => oneEvent) []).1 = .ok rec ∧
        rec.view.refs.contains ⟨"a"⟩ = true ∧ rec.failures.contains ⟨"b"⟩ = true ∧
        rec.failures.contains ⟨"q"⟩ = true :=
    ⟨_, rfl, by decide, by decide, by decide⟩
  obtain ⟨sets, hsets, hs⟩ := hsettles rec hrun
  cases hsets
  have hagreed : rec.view.agreements = .ofList [⟨"a"⟩] := by
    rw [hs.agreements, hs.cancellationPending]
    decide
  have hpending : rec.view.pendingProposals = .ofList [⟨"p"⟩] := by
    rw [hs.pendingProposals, hagreed, hs.cancellationPending, hs.rejected, hs.retracted]
    decide
  have hpruned : rec.pruned = true := by
    rw [hs.pruned, hpending, hagreed, hs.cancellationPending]
    decide
  have ha := hs.either ⟨"a"⟩ (hs.refsOpen _ hresolved)
  have hb := hs.either ⟨"b"⟩ (Or.inr (Or.inr (by rw [hs.cancellationPending]; decide)))
  refine ⟨rec, hrun, hs, hpending, hpruned, hresolved, ?_, hlost, ?_, hdropped, ?_⟩
  · rwa [hresolved, eq_comm, Bool.not_eq_true'] at ha
  · rwa [hlost] at hb
  · unfold AgreementView.IsOpen
    rw [hagreed, hpending, hs.cancellationPending]
    decide

end Parley
