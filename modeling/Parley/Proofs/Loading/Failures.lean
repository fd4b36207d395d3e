/-
What a failed fetch leaves behind. Main statement: whatever is recorded as failed after a run from
the empty records was put there by a failure that was reported while its fetch was in flight, and
that did not say that the resource was deleted, unless it is an external document. What its status
is was said either by that failure or by the last step since on the message pages of the connection:
a page that was claimed clears the status, and a page that failed sets it. So atoms, containers and
external documents keep the status of their failure, and a connection keeps it exactly if no page
has spoken since, or if the last one said the same.
-/
import Parley.Proofs.Loading.Phases

namespace Parley.Loading

/-- What the last step on the message pages of a connection made its status. -/
def lastPageWord? (steps : List Step) (kind : ResourceKind) (u : Uri) :
    Option (Option FetchAnswer) :=
  (steps.filterMap fun s => s.pageWord? kind u).getLast?

theorem lastPageWord?_cons (s : Step) (steps : List Step) (kind : ResourceKind) (u : Uri) :
    lastPageWord? (s :: steps) kind u = (lastPageWord? steps kind u).or (s.pageWord? kind u) := by
  unfold lastPageWord?
  rw [List.filterMap_cons]
  cases h : s.pageWord? kind u with
  | none => simp
  | some word => simp [List.getLast?_cons, Option.or_some]

namespace Step

variable {s : Step} {kind : ResourceKind} {u : Uri}

/-- Only connections have pages. -/
theorem pageWord?_of_ne (s : Step) (h : kind ≠ .connection) : s.pageWord? kind u = none := by
  unfold pageWord?
  split <;> simp [h]

/-- A failure that says that the resource was deleted is recorded for external documents only. -/
theorem Fails.kept {status : FetchAnswer} (h : s.Fails kind u status)
    (hgone : status.saysGone = true) : kind = .external := by
  refine Classical.byContradiction fun hkind => ?_
  obtain ⟨t, op⟩ := s
  obtain ⟨rfl, hanswer⟩ : op = _ ∧ _ := h
  obtain ⟨r, hr, -⟩ := t.removes_fail hkind u hgone
  have hfailure : (t.fail kind u status).1 = .failed := Answer.failure.inj hanswer
  rw [hr] at hfailure
  cases hfailure

/-- A resource that a step leaves as failed failed just now, or it was so before, and its status is
what it was unless a page speaks. -/
theorem failed_after (h : s.after.phase? kind u = some .failedToLoad) :
    (∃ status, s.Fails kind u status ∧ s.after.status? kind u = some status) ∨
      s.before.phase? kind u = some .failedToLoad ∧
        s.after.status? kind u = (s.pageWord? kind u).getD (s.before.status? kind u) := by
  have hchange := s.loadChange kind u
  unfold Tracker.phase? at h ⊢
  unfold Tracker.status?
  generalize s.before.load? kind u = l at hchange h ⊢
  generalize s.after.load? kind u = l' at hchange h ⊢
  cases hchange with
  | kept hword => exact Or.inr ⟨h, by rw [hword]; rfl⟩
  | failed hfails => exact Or.inl ⟨_, hfails, rfl⟩
  | paged hsubject hword =>
    cases l with
    | none => cases h
    | some l => exact Or.inr ⟨h, by rw [hword]; rfl⟩
  | appeared | named | started | landed | removed => cases h

end Step

/-- A resource that is failed after a run was so from the start, or it failed in the run; and since
then nothing but pages has changed its status. -/
theorem Tracker.origin_of_failed {t : Tracker} {ops : List Operation} {kind : ResourceKind}
    {u : Uri} (h : (t.performAll ops).phase? kind u = some .failedToLoad) :
    (t.phase? kind u = some .failedToLoad ∧
        (∀ s ∈ t.steps ops, s.after.phase? kind u = some .failedToLoad) ∧
        (t.performAll ops).status? kind u =
          (lastPageWord? (t.steps ops) kind u).getD (t.status? kind u)) ∨
      ∃ past a since status, t.steps ops = past ++ a :: since ∧ a.Fails kind u status ∧
        (∀ s ∈ since, s.after.phase? kind u = some .failedToLoad) ∧
        (t.performAll ops).status? kind u = (lastPageWord? since kind u).getD (some status) := by
  induction ops generalizing t with
  | nil => exact Or.inl ⟨h, by simp [steps], rfl⟩
  | cons op ops ih =>
    rcases ih (t := (t.perform op).2) h with ⟨hafter, hsince, hstatus⟩ |
      ⟨past, a, since, status, hsteps, hrest⟩
    · rcases Step.failed_after (s := ⟨t, op⟩) hafter with ⟨status, hfails, hword⟩ |
        ⟨hbefore, hword⟩
      · refine Or.inr ⟨[], _, _, status, rfl, hfails, hsince, ?_⟩
        exact hstatus.trans (congrArg _ hword)
      · refine Or.inl ⟨hbefore, List.forall_mem_cons.2 ⟨hafter, hsince⟩, ?_⟩
        rw [steps, lastPageWord?_cons]
        refine hstatus.trans ((congrArg _ hword).trans ?_)
        cases lastPageWord? ((t.perform op).2.steps ops) kind u <;> rfl
    · refine Or.inr ⟨⟨t, op⟩ :: past, a, since, status, ?_, hrest⟩
      rw [steps, hsteps, List.cons_append]

/-- Whatever is failed after a run from the empty records has the status of its failure, unless the
pages of the connection have said something else since. -/
theorem failed_keeps_status_iff (maxFailures : Nat) (ops : List Operation) (kind : ResourceKind)
    (u : Uri)
    (h : ((Tracker.empty maxFailures).performAll ops).phase? kind u = some .failedToLoad) :
    ∃ past a since status, (Tracker.empty maxFailures).steps ops = past ++ a :: since ∧
      a.Fails kind u status ∧
      (∀ s ∈ since, s.after.phase? kind u = some .failedToLoad) ∧
      (status.saysGone = true → kind = .external) ∧
      ((Tracker.empty maxFailures).performAll ops).status? kind u =
        (lastPageWord? since kind u).getD (some status) ∧
      (((Tracker.empty maxFailures).performAll ops).status? kind u = some status ↔
        ∀ word, lastPageWord? since kind u = some word → word = some status) ∧
      (kind ≠ .connection →
        ((Tracker.empty maxFailures).performAll ops).status? kind u = some status) := by
  rcases Tracker.origin_of_failed h with ⟨hempty, -⟩ |
    ⟨past, a, since, status, hsteps, hfails, hsince, hstatus⟩
  · cases kind <;> cases hempty
  · refine ⟨past, a, since, status, hsteps, hfails, hsince, hfails.kept, hstatus, ?_, ?_⟩
    · rw [hstatus]
      cases lastPageWord? since kind u with
      | none => simp
      | some word => simp
    · intro hkind
      have hword : lastPageWord? since kind u = none := by
        unfold lastPageWord?
        rw [List.filterMap_eq_nil_iff.2 fun s _ => s.pageWord?_of_ne hkind]
        rfl
      rw [hstatus, hword]
      rfl

/-- A connection that cannot be fetched. -/
def failedConnection : List Operation :=
  [.claim .connection ⟨"c"⟩, .fail .connection ⟨"c"⟩ ⟨some 500, "Internal Server Error"⟩]

theorem failed_keeps_status_iff_failedConnection :
    ((Tracker.empty 3).performAll failedConnection).phase? .connection ⟨"c"⟩ =
        some .failedToLoad ∧
      ∃ past a since status, (Tracker.empty 3).steps failedConnection = past ++ a :: since ∧
        a.Fails .connection ⟨"c"⟩ status ∧
        (((Tracker.empty 3).performAll failedConnection).status? .connection ⟨"c"⟩ =
          some status ↔
          ∀ word, lastPageWord? since .connection ⟨"c"⟩ = some word → word = some status) := by
  have hfailed : ((Tracker.empty 3).performAll failedConnection).phase? .connection ⟨"c"⟩ =
      some .failedToLoad := by decide
  obtain ⟨past, a, since, status, hsteps, hfails, -, -, -, hiff, -⟩ :=
    failed_keeps_status_iff 3 failedConnection .connection ⟨"c"⟩ hfailed
  exact ⟨hfailed, past, a, since, status, hsteps, hfails, hiff⟩

/-- A page that is fetched for a failed connection takes the status of the failure away, and leaves
its own if it fails, be it that the page is gone; the connection counts as failed all the time. -/
theorem failure_lost_to_page :
    ∃ a b c d, (Tracker.empty 3).steps
        (failedConnection ++ [.claimPage ⟨"c"⟩, .failPage ⟨"c"⟩ [] none ⟨some 410, "Gone"⟩]) =
        [a, b, c, d] ∧
      b.Fails .connection ⟨"c"⟩ ⟨some 500, "Internal Server Error"⟩ ∧
      b.after.status? .connection ⟨"c"⟩ = some ⟨some 500, "Internal Server Error"⟩ ∧
      c.after.phase? .connection ⟨"c"⟩ = some .failedToLoad ∧
      c.after.status? .connection ⟨"c"⟩ = none ∧
      d.after.phase? .connection ⟨"c"⟩ = some .failedToLoad ∧
      d.after.status? .connection ⟨"c"⟩ = some ⟨some 410, "Gone"⟩ :=
  ⟨_, _, _, _, rfl, ⟨rfl, rfl⟩, by decide, by decide, by decide, by decide, by decide⟩

end Parley.Loading
