/-
One call that reconciles a connection, step by step among others. It checks and claims the agreement
data in one step, then asks for the server's sets, then for single events, and reports at the end
what came of it. If the sets cannot be had, it asks nothing more and reports that. Once it has the
sets, nothing but success is left to report, whatever becomes of the single events.
-/
import Parley.Proofs.Session.AgreementData
import Parley.Proofs.Session.Pool

namespace Parley

open Loading

/-! ## Inquiries that cannot fail -/

/-- Whatever the answers, the result has a property. -/
def Inquiry.Always {α : Type} (P : α → Prop) : Inquiry α → Prop
  | .done a => P a
  | .ask _ next => ∀ answer, (next answer).Always P

theorem Inquiry.always_bind {α β : Type} {P : β → Prop} {f : α → Inquiry β}
    (h : ∀ a, (f a).Always P) (i : Inquiry α) : (i.bind f).Always P := by
  induction i with
  | done a => exact h a
  | ask q next ih => exact fun answer => ih answer

namespace Call

/-! ## The stages of a call -/

/-- What a call that reconciles a connection answers. -/
abbrev Refresh := Except SessionError (Option Reconciliation)

/-- The last step of a call that reconciles a connection. -/
def report (u : Uri) : Except AgreementError Reconciliation → Program Refresh
  | .ok r =>
    .atomic (·.apply (.agreementReconciled u r.view r.fetched)) fun _ => .done (.ok (some r))
  | .error e => .atomic (·.apply (.agreementFailed u)) fun _ => .done (.error (.agreement e))

/-- What is left of the call after its claim was granted. -/
def reconcileAndReport (settings : Settings) (u : Uri) (inputs : Inputs) : Program Refresh :=
  (Program.ofInquiry settings
    (reconcile u inputs.ownAtom inputs.store settings.maxDepth inputs.previous)).bind (report u)

/-- What is left of the call after the answer of its claim. -/
def goOn (settings : Settings) (u : Uri) : Except SessionError (Option Inputs) → Program Refresh
  | .error e => .done (.error e)
  | .ok none => .done (.ok none)
  | .ok (some inputs) => reconcileAndReport settings u inputs

theorem refreshAgreements_eq (settings : Settings) (u : Uri) :
    refreshAgreements settings u =
      .atomic (fun s => (claimAgreement u s).2) fun s => goOn settings u (claimAgreement u s).1 :=
  rfl

/-- The question for the server's sets. -/
def setsQuery (settings : Settings) (u : Uri) : Request :=
  .fetchProtocolSets (settings.agreementUrl u)

/-- Where a call that reconciles a connection stands: what is left of it, and what it asked. A call
that is left with a failure to report has asked for the sets alone, and got a refusal. -/
inductive Refreshing (settings : Settings) (u : Uri) (refused : NodeFailure → Prop)
    (rest : Program Refresh) (asked : List Request) : Prop
  | unclaimed (hrest : rest = refreshAgreements settings u) (hasked : asked = [])
  | querying (inputs : Inputs) (hrest : rest = reconcileAndReport settings u inputs)
      (hasked : asked = [])
  | resolving (q : Inquiry (Except AgreementError Reconciliation))
      (hrest : rest = (Program.ofInquiry settings q).bind (report u))
      (hq : q.Always fun outcome => ∃ r, outcome = .ok r)
  | failing (f : NodeFailure) (hf : refused f)
      (hrest : rest = report u (.error (Program.agreementFailure u f)))
      (hasked : asked = [setsQuery settings u])
  | returned (answer : Refresh) (hrest : rest = .done answer)

theorem Refreshing.mono {settings : Settings} {u : Uri} {refused refused' : NodeFailure → Prop}
    {rest : Program Refresh} {asked : List Request} (h : Refreshing settings u refused rest asked)
    (himp : ∀ f, refused f → refused' f) : Refreshing settings u refused' rest asked := by
  cases h with
  | unclaimed hrest hasked => exact .unclaimed hrest hasked
  | querying inputs hrest hasked => exact .querying inputs hrest hasked
  | resolving q hrest hq => exact .resolving q hrest hq
  | failing f hf hrest hasked => exact .failing f (himp f hf) hrest hasked
  | returned answer hrest => exact .returned answer hrest

end Call

/-- The outcome that a call has reported to the client's state: whether the agreement data is
there. -/
def Progress.reported? (p : Progress Call.Refresh) : Option Bool :=
  match p.result? with
  | some (.ok (some _)) => some true
  | some (.error (.agreement _)) => some false
  | _ => none

namespace Call

/-! ## One step -/

/-- What one step of a call that reconciles a connection does to the state. -/
inductive RefreshStep (settings : Settings) (u : Uri) (refused : NodeFailure → Prop) (node : Node)
    (p : Progress Refresh) (s : Session) : Prop
  /-- The step claims the agreement data, if it may. -/
  | claims (hs : (p.step node s).2 = (claimAgreement u s).2)
      (hreported : (p.step node s).1.reported? = none)
  /-- The step leaves the state as it is: a question was asked, or the call is over. -/
  | waits (hs : (p.step node s).2 = s)
      (hreported : p.reported? = none → (p.step node s).1.reported? = none)
  | succeeds (r : Reconciliation)
      (hs : (p.step node s).2 = s.apply (.agreementReconciled u r.view r.fetched))
      (hbefore : p.reported? = none) (hreported : (p.step node s).1.reported? = some true)
  | fails (f : NodeFailure) (hf : refused f)
      (hasked : (p.step node s).1.asked = [setsQuery settings u])
      (hs : (p.step node s).2 = s.apply (.agreementFailed u))
      (hbefore : p.reported? = none)
      (hresult : (p.step node s).1.result? =
        some (.error (.agreement (Program.agreementFailure u f))))

variable {settings : Settings} {u : Uri} {refused : NodeFailure → Prop} {p : Progress Refresh}

/-- While a call has questions left, or its outcome to report, it has reported nothing. -/
theorem reported?_of_resolving {q : Inquiry (Except AgreementError Reconciliation)}
    (h : p.rest = (Program.ofInquiry settings q).bind (report u)) : p.reported? = none := by
  unfold Progress.reported? Progress.result?
  rw [h]
  cases q with
  | done outcome => cases outcome <;> rfl
  | ask question next =>
    obtain ⟨r, read, hask⟩ := Program.ofInquiry_ask settings question next
    rw [hask]
    rfl

/-- Once the sets are there, the reconciliation succeeds. -/
theorem always_reconcile (ownAtom : Uri) (store : Store) (maxDepth : Nat)
    (previous : Option AgreementView) (sets : ServerSets) :
    Inquiry.Always (fun outcome : Except AgreementError Reconciliation => ∃ r, outcome = .ok r)
      ((Resolver.resolveAll ⟨ownAtom, store, max maxDepth 1⟩ sets.view.openEntries .none).bind
        fun f => .done (.ok (.ofFindings sets f previous))) := by
  refine Inquiry.always_bind (fun f => ?_) _
  exact ⟨_, rfl⟩

/-- The question for the sets, and what its answer leads to. -/
theorem reconcileAndReport_eq (settings : Settings) (u : Uri) (inputs : Inputs) :
    ∃ next, reconcileAndReport settings u inputs = .ask (setsQuery settings u) next ∧
      (∀ f, next (.error f) = report u (.error (Program.agreementFailure u f))) ∧
      ∀ sets, ∃ q, next (.ok sets) = (Program.ofInquiry settings q).bind (report u) ∧
        q.Always fun outcome => ∃ r, outcome = .ok r := by
  unfold reconcileAndReport reconcile
  rw [Program.ofInquiry]
  refine ⟨_, rfl, fun f => rfl, fun sets => ⟨_, rfl, ?_⟩⟩
  exact always_reconcile inputs.ownAtom inputs.store settings.maxDepth inputs.previous sets

theorem claimAgreement_error {s : Session} {e : SessionError}
    (h : (claimAgreement u s).1 = .error e) : e = .unknownConnection u := by
  unfold claimAgreement connection at h
  cases hc : s.connections.get? u with
  | none =>
    rw [hc] at h
    cases h
    rfl
  | some c =>
    rw [hc] at h
    simp only at h
    split at h
    · split at h <;> cases h
    · cases h

/-- Whatever its claim answers, a call has reported nothing then. -/
theorem refreshing_goOn (refused : NodeFailure → Prop) {s : Session}
    (hrest : p.rest = goOn settings u (claimAgreement u s).1)
    (hasked : p.asked = []) :
    Refreshing settings u refused p.rest p.asked ∧ p.reported? = none := by
  cases hclaimed : (claimAgreement u s).1 with
  | error e =>
    rw [hclaimed] at hrest
    refine ⟨.returned _ hrest, ?_⟩
    unfold Progress.reported? Progress.result?
    rw [hrest, claimAgreement_error hclaimed]
    rfl
  | ok inputs =>
    rw [hclaimed] at hrest
    cases inputs with
    | none =>
      refine ⟨.returned _ hrest, ?_⟩
      unfold Progress.reported? Progress.result?
      rw [hrest]
      rfl
    | some inputs => exact ⟨.querying inputs hrest hasked, reported?_of_resolving hrest⟩

/-- A step takes a call to a further stage. It is left with a failure to report only if its question
for the sets has just been refused. -/
theorem Refreshing.step (h : Refreshing settings u refused p.rest p.asked) (node : Node)
    (s : Session) (refused' : NodeFailure → Prop)
    (hnow : ∀ f, p.asked = [] → (p.step node s).1.asked = [setsQuery settings u] →
      node (setsQuery settings u) = .error f → refused' f) :
    Refreshing settings u refused' (p.step node s).1.rest (p.step node s).1.asked ∧
      RefreshStep settings u refused node p s := by
  cases h with
  | unclaimed hrest hasked =>
    have hstep := p.step_of_atomic (hrest.trans (refreshAgreements_eq settings u)) node s
    have hrest' : (p.step node s).1.rest = goOn settings u (claimAgreement u s).1 := by rw [hstep]
    obtain ⟨hstage, hreported⟩ := refreshing_goOn refused' hrest' (by rw [hstep]; exact hasked)
    exact ⟨hstage, .claims (by rw [hstep]) hreported⟩
  | querying inputs hrest hasked =>
    obtain ⟨next, hask, herror, hok⟩ := reconcileAndReport_eq settings u inputs
    have hstep := p.step_of_ask (hrest.trans hask) node s
    have hasked' : (p.step node s).1.asked = [setsQuery settings u] := by
      rw [hstep, hasked]
      rfl
    cases hanswer : node (setsQuery settings u) with
    | error f =>
      have hrest' : (p.step node s).1.rest = report u (.error (Program.agreementFailure u f)) := by
        rw [hstep, ← herror f, ← hanswer]
      refine ⟨.failing f (hnow f hasked hasked' hanswer) hrest' hasked',
        .waits (by rw [hstep]) fun _ => ?_⟩
      unfold Progress.reported? Progress.result?
      rw [hrest']
      rfl
    | ok sets =>
      obtain ⟨q, hnext, hq⟩ := hok sets
      have hrest' : (p.step node s).1.rest = (Program.ofInquiry settings q).bind (report u) := by
        rw [hstep, ← hnext, ← hanswer]
      exact ⟨.resolving q hrest' hq, .waits (by rw [hstep]) fun _ => reported?_of_resolving hrest'⟩
  | resolving q hrest hq =>
    cases q with
    | done outcome =>
      obtain ⟨r, rfl⟩ := hq
      have hrest : p.rest = report u (.ok r) := hrest
      have hstep := p.step_of_atomic hrest node s
      refine ⟨.returned (.ok (some r)) (by rw [hstep]), .succeeds r (by rw [hstep]) ?_ ?_⟩
      · simp only [Progress.reported?, Progress.result?, hrest, report]
      · rw [hstep]
        rfl
    | ask question next =>
      obtain ⟨r, read, hask⟩ := Program.ofInquiry_ask settings question next
      rw [hask] at hrest
      have hstep := p.step_of_ask hrest node s
      have hrest' : (p.step node s).1.rest =
          (Program.ofInquiry settings (next (read (node r)))).bind (report u) := by rw [hstep]
      exact ⟨.resolving _ hrest' (hq _),
        .waits (by rw [hstep]) fun _ => reported?_of_resolving hrest'⟩
  | failing f hf hrest hasked =>
    have hstep := p.step_of_atomic hrest node s
    refine ⟨.returned (.error (.agreement (Program.agreementFailure u f))) (by rw [hstep]),
      .fails f hf (by rw [hstep]; exact hasked) (by rw [hstep]) ?_ (by rw [hstep]; rfl)⟩
    simp only [Progress.reported?, Progress.result?, hrest, report]
  | returned answer hrest =>
    have hstep := p.step_of_done hrest node s
    exact ⟨.returned answer (by rw [hstep]; exact hrest),
      .waits (by rw [hstep]) fun h => by rwa [hstep]⟩

/-- A step concerns nothing but the agreement data of the connection. -/
theorem RefreshStep.reachesOnly {node : Node} {s : Session}
    (h : RefreshStep settings u refused node p s) : s.ReachesOnly (p.step node s).2 u := by
  cases h with
  | claims hs _ =>
    rw [hs]
    rcases claimAgreement_snd u s with hnothing | ⟨-, hclaimed⟩
    · rw [hnothing]
      exact .refl s u
    · rw [hclaimed]
      exact s.reachesOnly_tracker (s.tracker.claimDataSet_agreementData u).1
  | waits hs _ =>
    rw [hs]
    exact .refl s u
  | succeeds r hs _ _ =>
    rw [hs]
    exact s.reachesOnly_agreementReconciled u r.view r.fetched
  | fails f _ _ hs _ _ =>
    rw [hs]
    exact s.reachesOnly_agreementFailed u

end Call

end Parley
