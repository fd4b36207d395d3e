/-
Entries are resolved independently. The entries of a reconciliation share the events asked for
before, and a chain that fails half-way leaves behind what it had got. This is never seen in an
outcome: each entry comes out as if it were resolved alone, in whatever order and company, and all
that the entries before it change is what still has to be asked. A question is asked again only
after it failed.

The invariant of the loop over the entries says what the shared events are: exactly the answers
that were had to the questions asked so far.
-/
import Parley.Proofs.Agreement.Chain

namespace Parley

namespace Inquiry

/-- No question is asked again after it was answered. -/
def RepeatsFailuresOnly (source : Source) (asked : List Question) : Prop :=
  asked.Pairwise fun q q' => q = q' → ∃ e, source q = .error e

theorem repeatsFailuresOnly_of_nodup {source : Source} {asked : List Question}
    (h : asked.Nodup) : RepeatsFailuresOnly source asked :=
  h.imp fun hne e => absurd e hne

end Inquiry

namespace Resolver

open Inquiry (RepeatsFailuresOnly)

/-! ## What is recorded of one entry -/

/-- Resolved and failed entries tell the outcome of an entry: its two ends and no failure, or its
failure and no ends. -/
def Records (refs : UriMap ChainEnds) (failures : UriMap AgreementError) (u : Uri) :
    Except AgreementError ChainEnds → Prop
  | .ok ends => refs.get? u = some ends ∧ failures.get? u = none
  | .error e => refs.get? u = none ∧ failures.get? u = some e

/-- The findings tell the outcomes of the entries of a list, and nothing of other entries. -/
structure Findings.AgreesOn (f : Findings) (us : List Uri)
    (outcome : Uri → Except AgreementError ChainEnds) : Prop where
  told : ∀ u ∈ us, Records f.refs f.failures u (outcome u)
  untold : ∀ u, u ∉ us → f.refs.get? u = .none ∧ f.failures.get? u = .none

theorem none_agreesOn (outcome : Uri → Except AgreementError ChainEnds) :
    Findings.none.AgreesOn [] outcome :=
  ⟨fun _ h => absurd h List.not_mem_nil, fun _ _ => ⟨rfl, rfl⟩⟩

/-- Recording the outcome of an entry tells it, also where it was told before. -/
theorem Findings.AgreesOn.record {f : Findings} {us : List Uri}
    {outcome : Uri → Except AgreementError ChainEnds} (h : f.AgreesOn us outcome) (u : Uri)
    (cache : UriMap Message) : (f.record u (outcome u, cache)).AgreesOn (us ++ [u]) outcome := by
  have hother {v : Uri} (hv : v ≠ u) :
      (f.record u (outcome u, cache)).refs.get? v = f.refs.get? v ∧
        (f.record u (outcome u, cache)).failures.get? v = f.failures.get? v := by
    cases outcome u <;> simp [Findings.record, hv]
  constructor
  case told =>
    intro v hv
    by_cases hvu : v = u
    · subst hvu
      by_cases hmem : v ∈ us
      · have htold := h.told v hmem
        cases ho : outcome v with
        | ok ends =>
          rw [ho] at htold
          exact ⟨by simp [Findings.record], htold.2⟩
        | error e =>
          rw [ho] at htold
          exact ⟨htold.1, by simp [Findings.record]⟩
      · obtain ⟨hrefs, hfailures⟩ := h.untold v hmem
        cases outcome v with
        | ok ends => exact ⟨by simp [Findings.record], hfailures⟩
        | error e => exact ⟨hrefs, by simp [Findings.record]⟩
    · have htold := h.told v (by simpa [hvu] using hv)
      obtain ⟨hrefs, hfailures⟩ := hother hvu
      cases ho : outcome v <;> rw [ho] at htold <;> simpa [Records, hrefs, hfailures] using htold
  case untold =>
    intro v hv
    simp only [List.mem_append, List.mem_singleton, not_or] at hv
    obtain ⟨hrefs, hfailures⟩ := hother hv.2
    rw [hrefs, hfailures]
    exact h.untold v hv.1

/-! ## What the entries share -/

section

variable {r : Resolver} {source : Inquiry.Source} {cache : UriMap Message} {asked : List Question}

/-- What was learnt from nothing is what the source has. -/
theorem Learns.remembered (h : r.Learns source ∅ cache asked) :
    Remembered cache (.ofSource source r.ownAtom) := by
  intro u m hm
  rw [h u, UriMap.get?_empty, Option.none_or] at hm
  split at hm
  · cases hknown : Lookup.ofSource source r.ownAtom u with
    | ok n =>
      rw [hknown] at hm
      cases hm
      rfl
    | error e =>
      rw [hknown] at hm
      cases hm
  · cases hm

/-- What was asked and is not remembered has failed. -/
theorem Learns.failed_of_asked (h : r.Learns source ∅ cache asked) {u : Uri}
    (hu : .event r.ownAtom u ∈ asked) (hcache : cache.get? u = none) :
    ∃ e, source (.event r.ownAtom u) = .error e := by
  have hlearnt := h u
  rw [hcache, if_pos hu, UriMap.get?_empty, Option.none_or] at hlearnt
  cases hknown : source (.event r.ownAtom u) with
  | ok m =>
    rw [Lookup.ofSource, hknown] at hlearnt
    cases hlearnt
  | error e => exact ⟨e, rfl⟩

/-- An entry comes out as if it were resolved alone. -/
theorem run_resolve_eq_alone (h : r.Learns source ∅ cache asked) (u : Uri) :
    ((r.resolve u cache).run source).1 = ((r.resolve u ∅).run source).1 :=
  (r.run_resolve source h.remembered u).trans
    (r.run_resolve source (remembered_empty _) u).symm

/-- Resolving one more entry repeats only failures. -/
theorem repeatsFailuresOnly_append (h : r.Learns source ∅ cache asked)
    (hasked : RepeatsFailuresOnly source asked) (u : Uri) :
    RepeatsFailuresOnly source (asked ++ (r.resolve u cache).questions source) := by
  unfold RepeatsFailuresOnly
  rw [List.pairwise_append]
  refine ⟨hasked, Inquiry.repeatsFailuresOnly_of_nodup (r.asksOnce_resolve u cache source), ?_⟩
  rintro q hq q' hq' rfl
  -- a question to the source is about an event that is not remembered
  obtain ⟨v, rfl, -, hcache, -⟩ := ((r.followsChain_run source u cache).asked_iff q).1 hq'
  exact h.failed_of_asked hq hcache

end

/-- What holds when some entries are resolved: each of them is told as it is resolved alone, nothing
is told of others, only events were asked for, what is remembered are the answers that were had, and
no question was asked again after it was answered. -/
structure Resolves (r : Resolver) (source : Inquiry.Source) (us : List Uri) (f : Findings)
    (asked : List Question) : Prop where
  agreesOn : f.AgreesOn us fun u => ((r.resolve u ∅).run source).1
  events : ∀ q ∈ asked, ∃ v, q = .event r.ownAtom v
  learns : r.Learns source ∅ f.cache asked
  once : RepeatsFailuresOnly source asked

theorem resolves_none (r : Resolver) (source : Inquiry.Source) :
    r.Resolves source [] .none [] :=
  ⟨none_agreesOn _, fun _ h => absurd h List.not_mem_nil, .refl r source ∅, List.Pairwise.nil⟩

theorem Resolves.record {r : Resolver} {source : Inquiry.Source} {us : List Uri} {f : Findings}
    {asked : List Question} (h : r.Resolves source us f asked) (u : Uri) :
    r.Resolves source (us ++ [u]) (f.record u ((r.resolve u f.cache).run source))
      (asked ++ (r.resolve u f.cache).questions source) := by
  have halone := run_resolve_eq_alone h.learns u
  have hlearns := h.learns.trans (r.learns_follow source u r.maxDepth none u [] f.cache)
  have honce := repeatsFailuresOnly_append h.learns h.once u
  have hcache (outcome : Outcome) : (f.record u outcome).cache = outcome.2 := by
    obtain ⟨result, cache⟩ := outcome
    cases result <;> rfl
  refine ⟨?_, fun q hq => ?_, ?_, honce⟩
  · have htold := h.agreesOn.record u ((r.resolve u f.cache).run source).2
    rw [← halone] at htold
    exact htold
  · rcases List.mem_append.1 hq with hq | hq
    · exact h.events q hq
    · obtain ⟨v, hv, -⟩ := ((r.followsChain_run source u f.cache).asked_iff q).1 hq
      exact ⟨v, hv⟩
  · rw [hcache]
    exact hlearns

/-- So it holds whatever entries are resolved one after another. -/
theorem resolves_resolveAll (r : Resolver) (source : Inquiry.Source) (us : List Uri) :
    ∀ (f : Findings) (before : List Uri) (asked : List Question),
      r.Resolves source before f asked →
        r.Resolves source (before ++ us) ((r.resolveAll us f).run source)
          (asked ++ (r.resolveAll us f).questions source) := by
  induction us with
  | nil =>
    intro f before asked h
    simpa [resolveAll, Inquiry.run, Inquiry.questions] using h
  | cons u us ih =>
    intro f before asked h
    unfold resolveAll
    rw [Inquiry.run_bind, Inquiry.questions_bind, List.append_cons, ← List.append_assoc]
    exact ih _ _ _ (h.record u)

end Resolver

/-! ## The entries of a reconciliation -/

/-- A result tells the outcome of each open entry that it keeps, and of one that it drops only why
it failed, if it did. -/
structure Reconciliation.Tells (rec : Reconciliation) (sets : ServerSets)
    (outcome : Uri → Except AgreementError ChainEnds) : Prop where
  kept : ∀ u, rec.view.IsOpen u → Resolver.Records rec.view.refs rec.failures u (outcome u)
  dropped : ∀ u, sets.IsOpen u → ¬ rec.view.IsOpen u →
    rec.view.refs.get? u = none ∧ ∀ e, rec.failures.get? u = some e ↔ outcome u = .error e

section

variable {connection : Uri} {source : Inquiry.Source} {sets : ServerSets}

open Inquiry (RepeatsFailuresOnly)

/-- A result tells what was found out about its entries. -/
theorem ofFindings_tells {f : Resolver.Findings} {outcome : Uri → Except AgreementError ChainEnds}
    (h : ∀ u ∈ sets.view.openEntries, Resolver.Records f.refs f.failures u (outcome u))
    (previous : Option AgreementView) :
    (Reconciliation.ofFindings sets f previous).Tells sets outcome := by
  let resolved : AgreementView := { sets.view with refs := f.refs }
  have hsorted : resolved.SortsEntries :=
    ⟨sets.view_sortsEntries.agreed, sets.view_sortsEntries.proposed⟩
  have hrefs (u : Uri) : resolved.withoutRevoked.refs.get? u =
      (f.refs.get? u).filter fun _ => !(u ∈ resolved.pendingProposals && resolved.isRevoked u) :=
    UriMap.get?_filter f.refs _ u
  constructor
  case kept =>
    intro u hu
    obtain ⟨hopen, hkept⟩ := hsorted.isOpen_withoutRevoked.1 hu
    have hsame : resolved.withoutRevoked.refs.get? u = f.refs.get? u := by
      rw [hrefs, hkept]
      cases f.refs.get? u <;> rfl
    show Resolver.Records resolved.withoutRevoked.refs f.failures u (outcome u)
    have htold := h u (AgreementView.mem_openEntries.2 hopen)
    cases ho : outcome u <;> rw [ho] at htold <;> simpa only [Resolver.Records, hsame] using htold
  case dropped =>
    intro u hu hnot
    have hopen : sets.view.IsOpen u := ServerSets.isOpen_view_iff.2 hu
    have hrevoked : (u ∈ resolved.pendingProposals && resolved.isRevoked u) = true := by
      rw [← Bool.not_eq_false]
      exact fun hkept => hnot (hsorted.isOpen_withoutRevoked.2 ⟨hopen, hkept⟩)
    show resolved.withoutRevoked.refs.get? u = none ∧
      ∀ e, f.failures.get? u = some e ↔ outcome u = .error e
    constructor
    · rw [hrefs, hrevoked]
      cases f.refs.get? u <;> rfl
    · have htold := h u (AgreementView.mem_openEntries.2 hopen)
      cases ho : outcome u <;> rw [ho] at htold <;> simp [htold.2]

/-- For every source, whatever entries are resolved and in whatever order, each of them comes out as
if it were resolved alone, and no question is asked again after it was answered. So a reconciliation
tells of each open entry what resolving it alone gives. -/
theorem entries_resolved_alone (hsets : source (.sets connection) = .ok sets) (ownAtom : Uri)
    (store : Store) (maxDepth : Nat) (previous : Option AgreementView) :
    let r : Resolver := ⟨ownAtom, store, max maxDepth 1⟩
    let alone (u : Uri) := ((r.resolve u ∅).run source).1
    (∀ us : List Uri, ((r.resolveAll us .none).run source).AgreesOn us alone ∧
      RepeatsFailuresOnly source ((r.resolveAll us .none).questions source)) ∧
    (∃ rec : Reconciliation,
      (reconcile connection ownAtom store maxDepth previous).run source = .ok rec ∧
        rec.Tells sets alone) ∧
    RepeatsFailuresOnly source
      ((reconcile connection ownAtom store maxDepth previous).questions source) := by
  intro r alone
  have hall (us : List Uri) := r.resolves_resolveAll source us .none [] [] (r.resolves_none source)
  simp only [List.nil_append] at hall
  have hopen := hall sets.view.openEntries
  obtain ⟨hrun, hasked⟩ := run_reconcile hsets ownAtom store maxDepth previous
  refine ⟨fun us => ⟨(hall us).agreesOn, (hall us).once⟩,
    ⟨_, hrun, ofFindings_tells hopen.agreesOn.told previous⟩, ?_⟩
  rw [hasked, RepeatsFailuresOnly, List.pairwise_cons]
  refine ⟨?_, hopen.once⟩
  -- the sets are asked for first, and never again
  rintro q hq rfl
  obtain ⟨v, hv⟩ := hopen.events _ hq
  cases hv

end

/-- A source of three agreements and two proposals: one entry has its copy on the other side among
them, one is not to be had, and one is a rejected proposal. -/
def sharedCopies : Inquiry.Source
  | .sets _ => .ok { ServerSets.empty with
      agreementUris := .ofList [⟨"lost"⟩, ⟨"mine"⟩, ⟨"theirs"⟩]
      pendingProposalUris := .ofList [⟨"mine"⟩, ⟨"refused"⟩]
      rejectedMessageUris := .ofList [⟨"refused"⟩] }
  | .event requester u => Resolver.bothCopies (.event requester u)

theorem entries_resolved_alone_sharedCopies :
    ∃ rec : Reconciliation,
      (reconcile ⟨"c"⟩ ⟨"own"⟩ .empty 8 none).run sharedCopies = .ok rec ∧
        rec.view.refs.get? ⟨"mine"⟩ = some ⟨⟨"mine"⟩, ⟨"theirs"⟩⟩ ∧
        rec.view.refs.get? ⟨"theirs"⟩ = some ⟨⟨"theirs"⟩, ⟨"theirs"⟩⟩ ∧
        rec.failures.get? ⟨"lost"⟩ = some (.fetch ⟨"lost"⟩ (some 404) "not found") := by
  have hsets : sharedCopies (.sets ⟨"c"⟩) = .ok _ := rfl
  obtain ⟨-, ⟨rec, hrun, htells⟩, -⟩ := entries_resolved_alone hsets ⟨"own"⟩ .empty 8 none
  obtain ⟨rec', hrun', hmine, htheirs, hlost⟩ : ∃ rec' : Reconciliation,
      (reconcile ⟨"c"⟩ ⟨"own"⟩ .empty 8 none).run sharedCopies = .ok rec' ∧
        ⟨"mine"⟩ ∈ rec'.view.agreements ∧ ⟨"theirs"⟩ ∈ rec'.view.agreements ∧
        ⟨"lost"⟩ ∈ rec'.view.agreements :=
    ⟨_, rfl, by decide, by decide, by decide⟩
  cases hrun'.symm.trans hrun
  exact ⟨rec, hrun, (htells.kept _ (.inl hmine)).1, (htells.kept _ (.inl htheirs)).1,
    (htells.kept _ (.inl hlost)).2⟩

end Parley
