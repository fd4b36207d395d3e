/-
At most one fetch at a time. In a run of operations from the empty records, something that was
started is not started again before its fetch landed or its record was dropped, and a fetch that
lands was started before, and neither landed nor was dropped since.

Both follow from one law of a step: afterwards a fetch is in flight exactly if the step starts it,
or if it was in flight and the step does not end it.
-/
import Parley.Proofs.Loading.Operations

namespace Parley.Loading

/-- One operation of a run, on the records it finds. -/
structure Step where
  before : Tracker
  operation : Operation

namespace Step

def answer (s : Step) : Answer :=
  (s.before.perform s.operation).1

def after (s : Step) : Tracker :=
  (s.before.perform s.operation).2

/-- A granted claim. -/
def Starts (s : Step) (f : Fetch) : Prop :=
  s.operation.role = .claims f ∧ s.answer = .claim .started

/-- An accepted report, be it of a completion or of a failure. -/
def Lands (s : Step) (f : Fetch) : Prop :=
  s.operation.role = .reports f ∧ s.answer.isAccepted = true

/-- A deletion that takes the record of the fetch away, alone or along with others. -/
def Drops (s : Step) (f : Fetch) : Prop :=
  s.operation.role = .deletes ∧ s.before.knows f.record.1 f.record.2 = true ∧
    s.after.knows f.record.1 f.record.2 = false

def Ends (s : Step) (f : Fetch) : Prop :=
  s.Lands f ∨ s.Drops f

variable {s : Step} {f g : Fetch}

theorem Starts.idle (h : s.Starts f) : s.before.inFlight f = false := by
  obtain ⟨hrole, hanswer⟩ := h
  have hclaim := (Tracker.claims_perform hrole s.before).1
  rw [answer] at hanswer
  rw [hanswer] at hclaim
  cases hf : s.before.inFlight f with
  | false => rfl
  | true =>
    rw [hf] at hclaim
    cases hclaim

theorem Lands.busy (h : s.Lands f) : s.before.inFlight f = true :=
  (Tracker.reports_perform h.1 s.before).1.symm.trans h.2

/-! Which fetch a step starts or ends is told by its role. -/

theorem starts_iff (h : s.operation.role = .claims g) :
    s.Starts f ↔ f = g ∧ s.before.inFlight g = false := by
  constructor
  · intro hs
    obtain rfl : g = f := by
      have := h.symm.trans hs.1
      cases this
      rfl
    exact ⟨rfl, hs.idle⟩
  · rintro ⟨rfl, hidle⟩
    refine ⟨h, (Tracker.claims_perform h s.before).1.trans ?_⟩
    simp [hidle]

theorem ends_of_reports_iff (h : s.operation.role = .reports g) :
    s.Ends f ↔ f = g ∧ s.before.inFlight g = true := by
  constructor
  · rintro (hl | hd)
    · obtain rfl : g = f := by
        have := h.symm.trans hl.1
        cases this
        rfl
      exact ⟨rfl, hl.busy⟩
    · cases h.symm.trans hd.1
  · rintro ⟨rfl, hbusy⟩
    exact Or.inl ⟨h, (Tracker.reports_perform h s.before).1.trans hbusy⟩

/-- The law of a step. -/
theorem inFlight_after_iff (s : Step) (f : Fetch) :
    s.after.inFlight f = true ↔ s.Starts f ∨ s.before.inFlight f = true ∧ ¬ s.Ends f := by
  -- a step of one role can neither start nor end what only another role starts or ends
  cases hrole : s.operation.role with
  | claims g =>
    have hends : ¬ s.Ends f := by
      rintro (hl | hd)
      · cases hrole.symm.trans hl.1
      · cases hrole.symm.trans hd.1
    rw [after, (Tracker.claims_perform hrole s.before).2, starts_iff hrole]
    by_cases hf : f = g
    · subst hf
      cases hb : s.before.inFlight f <;> simp [hends]
    · simp [hf, hends]
  | reports g =>
    have hstarts : ¬ s.Starts f := fun hs => by cases hrole.symm.trans hs.1
    rw [after, (Tracker.reports_perform hrole s.before).2, ends_of_reports_iff hrole]
    by_cases hf : f = g
    · subst hf
      simp [hstarts]
    · simp [hf, hstarts]
  | deletes =>
    have hstarts : ¬ s.Starts f := fun hs => by cases hrole.symm.trans hs.1
    have hlands : ¬ s.Lands f := fun hl => by cases hrole.symm.trans hl.1
    have hkept := (Tracker.sheds_perform hrole s.before).inFlight_iff f
    refine hkept.trans ?_
    constructor
    · rintro ⟨hf, hk⟩
      refine Or.inr ⟨hf, ?_⟩
      rintro (hl | ⟨-, -, hgone⟩)
      · exact hlands hl
      · exact absurd (hk.symm.trans hgone) (by decide)
    · rintro (hs | ⟨hf, hends⟩)
      · exact absurd hs hstarts
      · refine ⟨hf, Bool.of_not_eq_false fun hgone => hends (Or.inr ?_)⟩
        exact ⟨hrole, Tracker.knows_of_inFlight hf, hgone⟩
  | other =>
    have hstarts : ¬ s.Starts f := fun hs => by cases hrole.symm.trans hs.1
    have hends : ¬ s.Ends f := by
      rintro (hl | hd)
      · cases hrole.symm.trans hl.1
      · cases hrole.symm.trans hd.1
    rw [after, Tracker.sameFlights_perform hrole s.before f]
    simp [hstarts, hends]

end Step

namespace Tracker

/-! ## Runs -/

/-- The records after a run of operations. -/
def performAll (t : Tracker) (ops : List Operation) : Tracker :=
  ops.foldl (fun t op => (t.perform op).2) t

/-- The steps of a run. -/
def steps (t : Tracker) : List Operation → List Step
  | [] => []
  | op :: ops => ⟨t, op⟩ :: (t.perform op).2.steps ops

/-- A run splits where the list of its steps does. -/
theorem exists_of_steps_eq_append {t : Tracker} {ops : List Operation} {past rest : List Step}
    (h : t.steps ops = past ++ rest) :
    ∃ ops₁ ops₂, past = t.steps ops₁ ∧ rest = (t.performAll ops₁).steps ops₂ := by
  induction past generalizing t ops with
  | nil => exact ⟨[], ops, rfl, h.symm⟩
  | cons s past ih =>
    cases ops with
    | nil => cases h
    | cons op ops =>
      simp only [steps, List.cons_append, List.cons.injEq] at h
      obtain ⟨rfl, h⟩ := h
      obtain ⟨ops₁, ops₂, rfl, rfl⟩ := ih h
      exact ⟨op :: ops₁, ops₂, rfl, rfl⟩

theorem before_of_steps_eq_cons {t : Tracker} {ops : List Operation} {s : Step}
    {rest : List Step} (h : t.steps ops = s :: rest) :
    s.before = t ∧ ∃ ops', rest = s.after.steps ops' := by
  cases ops with
  | nil => cases h
  | cons op ops =>
    simp only [steps, List.cons.injEq] at h
    obtain ⟨rfl, rfl⟩ := h
    exact ⟨rfl, ops, rfl⟩

/-- What is told by one flag of the records. If each step decides by what it does whether it sets
the flag, and whether it clears it, the flag is up after a run if it was up before and nothing
cleared it, or if some step set it and nothing cleared it since. -/
theorem holds_performAll_iff {P : Tracker → Prop} {Sets Clears : Step → Prop}
    (hstep : ∀ s : Step, P s.after ↔ Sets s ∨ P s.before ∧ ¬ Clears s) (t : Tracker)
    (ops : List Operation) :
    P (t.performAll ops) ↔
      (P t ∧ ∀ s ∈ t.steps ops, ¬ Clears s) ∨
        ∃ past a since, t.steps ops = past ++ a :: since ∧ Sets a ∧ ∀ s ∈ since, ¬ Clears s := by
  induction ops generalizing t with
  | nil => simp [performAll, steps]
  | cons op ops ih =>
    have hfirst : P (t.perform op).2 ↔ Sets ⟨t, op⟩ ∨ P t ∧ ¬ Clears ⟨t, op⟩ := hstep ⟨t, op⟩
    refine (ih (t.perform op).2).trans ?_
    constructor
    · rintro (⟨hafter, hkept⟩ | ⟨past, a, since, hsteps, ha, hkept⟩)
      · rcases hfirst.1 hafter with hsets | ⟨hbefore, hfirstKept⟩
        · exact Or.inr ⟨[], _, _, rfl, hsets, hkept⟩
        · exact Or.inl ⟨hbefore, List.forall_mem_cons.2 ⟨hfirstKept, hkept⟩⟩
      · refine Or.inr ⟨⟨t, op⟩ :: past, a, since, ?_, ha, hkept⟩
        rw [steps, hsteps, List.cons_append]
    · rintro (⟨hbefore, hkept⟩ | ⟨past, a, since, hsteps, ha, hkept⟩)
      · obtain ⟨hfirstKept, hkept⟩ := List.forall_mem_cons.1 hkept
        exact Or.inl ⟨hfirst.2 (Or.inr ⟨hbefore, hfirstKept⟩), hkept⟩
      · -- the step that set the flag is the first one, or it is one of the rest
        rw [steps] at hsteps
        cases past with
        | nil =>
          simp only [List.nil_append, List.cons.injEq] at hsteps
          obtain ⟨rfl, rfl⟩ := hsteps
          exact Or.inl ⟨hfirst.2 (Or.inl ha), hkept⟩
        | cons s past =>
          simp only [List.cons_append, List.cons.injEq] at hsteps
          exact Or.inr ⟨past, a, since, hsteps.2, ha, hkept⟩

/-- What is in flight after a run was in flight before and no step ended it, or some step started it
and none ended it since. -/
theorem inFlight_performAll_iff (t : Tracker) (ops : List Operation) (f : Fetch) :
    (t.performAll ops).inFlight f = true ↔
      (t.inFlight f = true ∧ ∀ s ∈ t.steps ops, ¬ s.Ends f) ∨
        ∃ past a since, t.steps ops = past ++ a :: since ∧ a.Starts f ∧
          ∀ s ∈ since, ¬ s.Ends f :=
  holds_performAll_iff (P := fun t => t.inFlight f = true) (fun s => s.inFlight_after_iff f) t ops

end Tracker

theorem inFlight_empty (maxFailures : Nat) (f : Fetch) :
    (Tracker.empty maxFailures).inFlight f = false := by
  rcases f with ⟨kind, u⟩ | u | ⟨u, s⟩
  · cases kind <;> rfl
  · rfl
  · rfl

/-- In a run of operations from the empty records, between two starts of one fetch there is a step
that ends it; and before a fetch lands it was started, and no step in between ends it. -/
theorem one_fetch_at_a_time (maxFailures : Nat) (ops : List Operation) (f : Fetch) :
    (∀ past a between b rest,
      (Tracker.empty maxFailures).steps ops = past ++ a :: (between ++ b :: rest) →
        a.Starts f → b.Starts f → ∃ s ∈ between, s.Ends f) ∧
    (∀ past b rest, (Tracker.empty maxFailures).steps ops = past ++ b :: rest → b.Lands f →
      ∃ past' a between, past = past' ++ a :: between ∧ a.Starts f ∧
        ∀ s ∈ between, ¬ s.Ends f) := by
  constructor
  · intro past a between b rest hsteps ha hb
    refine Classical.byContradiction fun hnone => ?_
    have hends : ∀ s ∈ between, ¬ s.Ends f := fun s hs he => hnone ⟨s, hs, he⟩
    obtain ⟨_, ops₁, -, ha'⟩ := Tracker.exists_of_steps_eq_append hsteps
    obtain ⟨-, ops₂, hafter⟩ := Tracker.before_of_steps_eq_cons ha'.symm
    obtain ⟨ops₃, ops₄, rfl, hb'⟩ := Tracker.exists_of_steps_eq_append hafter.symm
    obtain ⟨hbefore, -⟩ := Tracker.before_of_steps_eq_cons hb'.symm
    -- the fetch that `a` starts is still in flight when `b` finds it idle
    have hbusy := (a.after.inFlight_performAll_iff ops₃ f).2
      (Or.inl ⟨(a.inFlight_after_iff f).2 (Or.inl ha), hends⟩)
    rw [← hbefore, hb.idle] at hbusy
    cases hbusy
  · intro past b rest hsteps hb
    obtain ⟨ops₁, ops₂, rfl, hb'⟩ := Tracker.exists_of_steps_eq_append hsteps
    obtain ⟨hbefore, -⟩ := Tracker.before_of_steps_eq_cons hb'.symm
    have hbusy := hb.busy
    rw [hbefore] at hbusy
    rcases (Tracker.inFlight_performAll_iff _ ops₁ f).1 hbusy with ⟨hempty, -⟩ | horigin
    · rw [inFlight_empty] at hempty
      cases hempty
    · exact horigin

/-- A page is fetched again after its connection was forgotten. -/
def refetchedPage : List Operation :=
  [.claimPage ⟨"c"⟩, .forgetConnection ⟨"c"⟩, .claimPage ⟨"c"⟩, .completePage ⟨"c"⟩ [] none]

theorem one_fetch_at_a_time_refetchedPage :
    ∃ a d b e, (Tracker.empty 3).steps refetchedPage = [a, d, b, e] ∧
      a.Starts (.page ⟨"c"⟩) ∧ d.Ends (.page ⟨"c"⟩) ∧ b.Starts (.page ⟨"c"⟩) ∧
      e.Lands (.page ⟨"c"⟩) ∧ ∃ past a' between, [a, d, b] = past ++ a' :: between ∧
        a'.Starts (.page ⟨"c"⟩) ∧ ∀ s ∈ between, ¬ s.Ends (.page ⟨"c"⟩) := by
  obtain ⟨hbetween, hbefore⟩ := one_fetch_at_a_time 3 refetchedPage (.page ⟨"c"⟩)
  refine ⟨_, _, _, _, rfl, ⟨rfl, rfl⟩, ?_, ⟨rfl, rfl⟩, ⟨rfl, rfl⟩, ?_⟩
  · obtain ⟨s, hs, hends⟩ := hbetween [] _ [_] _ [_] rfl ⟨rfl, rfl⟩ ⟨rfl, rfl⟩
    rwa [List.mem_singleton.1 hs] at hends
  · exact hbefore [_, _, _] _ [] rfl ⟨rfl, rfl⟩

end Parley.Loading
