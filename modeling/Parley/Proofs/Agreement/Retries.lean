/-
How often agreement data is fetched in vain. Any number of calls reconcile connections, and between
their steps anything else may happen to the client's state that does not have to do with fetching
agreement data: events of every other kind, claims, reports and deletions. A call checks the count
of failures in the same step in which it claims the data, and only data that is being fetched counts
a failure. So there is always room for the failure of what is being fetched, and a count that has
reached the limit stays until the record goes.

Everything is read off one law: what a single step does to the record of the agreement data of one
connection.
-/
import Parley.Proofs.Agreement.Refresh
import Mathlib.Data.List.Induction

namespace Parley

open Loading Call

/-! ## Calls among other happenings -/

/-- What happens next to calls under way: one of them takes a step, or something else changes the
state. -/
inductive Happening (ι : Type) where
  | turn (t : Turn ι)
  | other (m : Move)

/-- What is not a step of a call does not have to do with fetching agreement data, like the moves of
the calls that do not reconcile. -/
def Happening.LeavesAgreements {ι : Type} : Happening ι → Prop
  | .turn _ => True
  | .other m => m.LeavesAgreements

/-- Calls under way, and what happens next. -/
structure Moment (ι : Type) where
  pool : Pool ι Refresh
  next : Happening ι

section

variable {ι : Type} [DecidableEq ι]

namespace Pool

/-- Calls that reconcile connections, before their first step, of a client that knows nothing. -/
def refreshing (settings : Settings) (target : ι → Uri) (stamps : ι → Stamp)
    (maxFailures : Nat) : Pool ι Refresh :=
  .start (.start maxFailures) stamps fun i => refreshAgreements settings (target i)

def happen (p : Pool ι Refresh) : Happening ι → Pool ι Refresh
  | .turn t => p.turn t
  | .other m => { p with session := p.session.move m }

def runAmid (p : Pool ι Refresh) (hs : List (Happening ι)) : Pool ι Refresh :=
  hs.foldl happen p

/-- The moments of a run. -/
def moments (p : Pool ι Refresh) : List (Happening ι) → List (Moment ι)
  | [] => []
  | h :: hs => ⟨p, h⟩ :: (p.happen h).moments hs

theorem runAmid_append (p : Pool ι Refresh) (hs hs' : List (Happening ι)) :
    p.runAmid (hs ++ hs') = (p.runAmid hs).runAmid hs' :=
  List.foldl_append

theorem moments_snoc (p : Pool ι Refresh) (hs : List (Happening ι)) (h : Happening ι) :
    p.moments (hs ++ [h]) = p.moments hs ++ [⟨p.runAmid hs, h⟩] := by
  induction hs generalizing p with
  | nil => rfl
  | cons h' hs ih => exact congrArg (_ :: ·) (ih (p.happen h'))

/-- The record of the agreement data of a connection. -/
def agreementOf (p : Pool ι Refresh) (u : Uri) : DataSetRecord :=
  p.session.tracker.agreementOf u

/-- The connection has a load record. -/
def hasRecord (p : Pool ι Refresh) (u : Uri) : Bool :=
  p.session.tracker.connections.contains u

/-- A call asked for the server's sets, and the node refused. -/
def Refused (start : Pool ι Refresh) (settings : Settings) (target : ι → Uri)
    (hs : List (Happening ι)) (i : ι) (f : NodeFailure) : Prop :=
  ∃ before t after, hs = before ++ .turn t :: after ∧ t.call = i ∧
    ((start.runAmid before).calls i).asked = [] ∧
    ((start.runAmid (before ++ [.turn t])).calls i).asked = [setsQuery settings (target i)] ∧
    t.node (setsQuery settings (target i)) = .error f

theorem Refused.snoc {start : Pool ι Refresh} {settings : Settings} {target : ι → Uri}
    {hs : List (Happening ι)} {i : ι} {f : NodeFailure} (h : start.Refused settings target hs i f)
    (next : Happening ι) : start.Refused settings target (hs ++ [next]) i f := by
  obtain ⟨before, t, after, rfl, hrest⟩ := h
  exact ⟨before, t, after ++ [next], by simp, hrest⟩

end Pool

namespace Moment

def after (m : Moment ι) : Pool ι Refresh :=
  m.pool.happen m.next

/-- A call reports the outcome of reconciling the connection, and what it reports counts, because
the agreement data of the connection is being fetched. -/
def accepts (target : ι → Uri) (u : Uri) (outcome : Bool) (m : Moment ι) : Bool :=
  match m.next with
  | .turn t =>
    target t.call = u && (m.pool.agreementOf u).loading &&
      ((m.pool.calls t.call).reported? = none &&
        (m.after.calls t.call).reported? = some outcome)
  | .other _ => false

/-- The load record of the connection goes. -/
def removes (u : Uri) (m : Moment ι) : Bool :=
  m.pool.hasRecord u && !m.after.hasRecord u

/-- The failures are counted anew. -/
def resets (target : ι → Uri) (u : Uri) (m : Moment ι) : Bool :=
  m.accepts target u true || m.removes u

end Moment

/-- The accepted failures since the last accepted success or removal of the record. -/
def failuresSince (target : ι → Uri) (u : Uri) (ms : List (Moment ι)) : Nat :=
  (ms.reverse.takeWhile fun m => !m.resets target u).countP fun m => m.accepts target u false

theorem failuresSince_snoc (target : ι → Uri) (u : Uri) (ms : List (Moment ι)) (m : Moment ι) :
    failuresSince target u (ms ++ [m]) =
      if m.resets target u then 0
      else failuresSince target u ms + if m.accepts target u false then 1 else 0 := by
  unfold failuresSince
  rw [List.reverse_append, List.reverse_singleton, List.singleton_append, List.takeWhile_cons]
  cases m.resets target u with
  | true => rfl
  | false => simp [List.countP_cons]

/-! ## One step -/

/-- Where all the calls stand. -/
def Pool.InStages (p : Pool ι Refresh) (settings : Settings) (target : ι → Uri)
    (refused : ι → NodeFailure → Prop) : Prop :=
  ∀ i, Refreshing settings (target i) (refused i) (p.calls i).rest (p.calls i).asked

/-- What a moment makes of the record of the agreement data of a connection. -/
inductive Moment.Effect (settings : Settings) (target : ι → Uri)
    (refused : ι → NodeFailure → Prop) (u : Uri) (m : Moment ι) : Prop
  | spared
      (hafter : m.after.hasRecord u = false ∨ m.after.agreementOf u = m.pool.agreementOf u)
      (haccepts : ∀ outcome, m.accepts target u outcome = false)
  | claimed
      (hroom : (m.pool.agreementOf u).failCount < m.pool.session.tracker.maxFailures)
      (hafter : m.after.agreementOf u = { m.pool.agreementOf u with loading := true })
      (hkept : m.removes u = false)
      (haccepts : ∀ outcome, m.accepts target u outcome = false)
  | succeeded
      (hloading : (m.pool.agreementOf u).loading = true)
      (hafter : m.after.agreementOf u = ⟨false, true, 0, false⟩)
      (haccepts : m.accepts target u true = true)
  | failed (t : Turn ι) (f : NodeFailure)
      (hnext : m.next = .turn t)
      (htarget : target t.call = u)
      (hrefused : refused t.call f)
      (hasked : (m.after.calls t.call).asked = [setsQuery settings u])
      (hresult : (m.after.calls t.call).result? =
        some (.error (.agreement (Program.agreementFailure u f))))
      (hloading : (m.pool.agreementOf u).loading = true)
      (hafter : m.after.agreementOf u = { m.pool.agreementOf u with
        loading := false, failCount := (m.pool.agreementOf u).failCount + 1 })
      (hkept : m.removes u = false)
      (haccepts : ∀ outcome, m.accepts target u outcome = !outcome)

section

variable {settings : Settings} {target : ι → Uri} {refused : ι → NodeFailure → Prop}
  {p : Pool ι Refresh}

/-- A step of a call concerns nothing but the agreement data of its connection. -/
theorem Pool.InStages.reachesOnly (h : p.InStages settings target refused) (t : Turn ι) :
    p.session.ReachesOnly (p.turn t).session (target t.call) :=
  ((h t.call).step t.node p.session (fun _ => True) fun _ _ _ _ => trivial).2.reachesOnly

theorem Moment.removes_of_known {u : Uri} {m : Moment ι}
    (h : m.pool.hasRecord u = true → m.after.hasRecord u = true) : m.removes u = false := by
  unfold removes
  cases hu : m.pool.hasRecord u with
  | false => rfl
  | true => rw [h hu]; rfl

/-- A call that reports nothing has nothing accepted. -/
theorem Moment.accepts_of_silent (target : ι → Uri) {t : Turn ι} (u : Uri)
    (h : (p.calls t.call).reported? = none → ((p.turn t).calls t.call).reported? = none)
    (outcome : Bool) : Moment.accepts target u outcome ⟨p, .turn t⟩ = false := by
  unfold accepts
  simp only [Bool.and_eq_false_iff, decide_eq_false_iff_not]
  by_cases hbefore : (p.calls t.call).reported? = none
  · refine Or.inr (Or.inr ?_)
    show ¬ ((p.turn t).calls t.call).reported? = some outcome
    rw [h hbefore]
    nofun
  · exact Or.inr (Or.inl hbefore)

/-- While the data are not being fetched, nothing is accepted. -/
theorem Moment.accepts_of_idle {u : Uri} (m : Moment ι)
    (h : (m.pool.agreementOf u).loading = false) (outcome : Bool) :
    m.accepts target u outcome = false := by
  unfold accepts
  cases m.next <;> simp [h]

theorem Moment.accepts_of_reported {t : Turn ι} {u : Uri} (hu : target t.call = u)
    (hloading : (p.agreementOf u).loading = true) (hbefore : (p.calls t.call).reported? = none)
    {reported : Bool} (hreported : ((p.turn t).calls t.call).reported? = some reported)
    (outcome : Bool) :
    Moment.accepts target u outcome ⟨p, .turn t⟩ = decide (reported = outcome) := by
  have hafter : ((Moment.after ⟨p, .turn t⟩).calls t.call).reported? = some reported := hreported
  simp [accepts, hu, hloading, hbefore, hafter]

/-- What a step of a call makes of the agreement data of its own connection. -/
theorem Pool.InStages.effect_own (h : p.InStages settings target refused)
    (hlimit : 0 < p.session.tracker.maxFailures) (t : Turn ι) :
    Moment.Effect settings target refused (target t.call) ⟨p, .turn t⟩ := by
  let m : Moment ι := ⟨p, .turn t⟩
  have hcall : (p.turn t).calls t.call = ((p.calls t.call).step t.node p.session).1 :=
    p.calls_turn_self t
  have hkept : m.removes (target t.call) = false :=
    Moment.removes_of_known (h.reachesOnly t).tracker.known
  have hsession {s : Session} (hs : ((p.calls t.call).step t.node p.session).2 = s) :
      m.after.agreementOf (target t.call) = s.tracker.agreementOf (target t.call) :=
    congrArg (fun s : Session => s.tracker.agreementOf (target t.call)) hs
  cases ((h t.call).step t.node p.session (fun _ => True) fun _ _ _ _ => trivial).2 with
  | claims hs hreported =>
    have haccepts : ∀ outcome, m.accepts target (target t.call) outcome = false :=
      Moment.accepts_of_silent target _ fun _ => by rw [hcall]; exact hreported
    rcases claimAgreement_snd (target t.call) p.session with
      hnothing | ⟨hretry, hclaimed⟩
    · exact .spared (Or.inr (hsession (hs.trans hnothing))) haccepts
    · rw [Tracker.mayRetry_agreementData_of_pos _ hlimit] at hretry
      have hafter := (hsession (hs.trans hclaimed)).trans
        (p.session.tracker.claimDataSet_agreementData (target t.call)).2
      exact .claimed (of_decide_eq_true hretry) hafter hkept haccepts
  | waits hs hreported =>
    refine .spared (Or.inr (hsession hs)) (Moment.accepts_of_silent target _ fun hbefore => ?_)
    rw [hcall]
    exact hreported hbefore
  | succeeds r hs hbefore hreported =>
    have hafter := (hsession hs).trans
      (p.session.tracker.completeDataSet_agreementData (target t.call)).2
    cases hloading : (p.session.tracker.agreementOf (target t.call)).loading with
    | false =>
      rw [hloading] at hafter
      exact .spared (Or.inr hafter) (m.accepts_of_idle hloading)
    | true =>
      rw [hloading] at hafter
      rw [← hcall] at hreported
      exact .succeeded hloading hafter
        (Moment.accepts_of_reported rfl hloading hbefore hreported true)
  | fails f hf hasked hs hbefore hresult =>
    have hafter := (hsession hs).trans
      (p.session.tracker.failDataSet_agreementData (target t.call)).2
    cases hloading : (p.session.tracker.agreementOf (target t.call)).loading with
    | false =>
      rw [hloading] at hafter
      exact .spared (Or.inr hafter) (m.accepts_of_idle hloading)
    | true =>
      rw [hloading] at hafter
      rw [← hcall] at hasked hresult
      have hreported : ((p.turn t).calls t.call).reported? = some false := by
        unfold Progress.reported?
        rw [hresult]
      refine .failed t f rfl rfl hf hasked hresult hloading hafter hkept fun outcome => ?_
      rw [Moment.accepts_of_reported rfl hloading hbefore hreported]
      cases outcome <;> rfl

/-- The law of a step. -/
theorem Pool.InStages.effect (h : p.InStages settings target refused)
    (hlimit : 0 < p.session.tracker.maxFailures) {next : Happening ι}
    (hnext : next.LeavesAgreements) (u : Uri) :
    Moment.Effect settings target refused u ⟨p, next⟩ := by
  cases next with
  | other m =>
    have hspared := p.session.spares_move hnext
    refine .spared ((hspared.agreement u).imp_left fun hu => ?_) fun _ => rfl
    show ((p.session.move m).tracker.connections.get? u).isSome = false
    rw [hu]
    rfl
  | turn t =>
    by_cases hu : target t.call = u
    · subst hu
      exact h.effect_own hlimit t
    · have honly := (h.reachesOnly t).tracker
      refine .spared (Or.inr (honly.agreementOf_of_ne (Ne.symm hu))) fun outcome => ?_
      simp [Moment.accepts, hu]

end

/-! ## Whole runs -/

/-- The count of failures is within the limit, with room for one more while the data are being
fetched, and it is a given number. -/
structure Pool.Counts (p : Pool ι Refresh) (n failures : Nat) (u : Uri) : Prop where
  limit : p.session.tracker.maxFailures = n
  bounded : (p.agreementOf u).failCount ≤ n
  room : (p.agreementOf u).loading = true → (p.agreementOf u).failCount < n
  counted : (p.agreementOf u).failCount = failures

section

variable {settings : Settings} {target : ι → Uri} {refused : ι → NodeFailure → Prop}
  {p : Pool ι Refresh} {n failures : Nat} {u : Uri}

omit [DecidableEq ι] in
theorem Pool.agreementOf_of_noRecord (h : p.hasRecord u = false) : p.agreementOf u = .fresh :=
  Tracker.agreementOf_of_unknown (Option.isNone_iff_eq_none.1 (Option.isSome_eq_false_iff.1 h))

theorem Pool.InStages.limit_happen (h : p.InStages settings target refused) {next : Happening ι}
    (hnext : next.LeavesAgreements) :
    (p.happen next).session.tracker.maxFailures = p.session.tracker.maxFailures := by
  cases next with
  | other m => exact (p.session.spares_move hnext).limit
  | turn t => exact (h.reachesOnly t).tracker.limit

/-- A step counts as it accepts failures and resets. -/
theorem Pool.Counts.happen (h : p.Counts n failures u) (hn : 0 < n)
    (hstages : p.InStages settings target refused) {next : Happening ι}
    (hnext : next.LeavesAgreements) :
    (p.happen next).Counts n
      (if Moment.resets target u ⟨p, next⟩ then 0
        else failures + if Moment.accepts target u false ⟨p, next⟩ then 1 else 0) u := by
  let m : Moment ι := ⟨p, next⟩
  have hlimit : m.after.session.tracker.maxFailures = n :=
    (hstages.limit_happen hnext).trans h.limit
  suffices hrest : (m.after.agreementOf u).failCount ≤ n ∧
      ((m.after.agreementOf u).loading = true → (m.after.agreementOf u).failCount < n) ∧
      (m.after.agreementOf u).failCount = if m.resets target u then 0
        else failures + if m.accepts target u false then 1 else 0 from
    ⟨hlimit, hrest.1, hrest.2.1, hrest.2.2⟩
  unfold Moment.resets
  cases hstages.effect (h.limit ▸ hn) hnext u with
  | spared hafter haccepts =>
    rw [haccepts true, haccepts false]
    cases hrecord : m.after.hasRecord u with
    | false =>
      rw [Pool.agreementOf_of_noRecord hrecord]
      refine ⟨Nat.zero_le n, nofun, ?_⟩
      unfold Moment.removes
      rw [hrecord]
      cases hbefore : p.hasRecord u with
      | true => simp [DataSetRecord.fresh]
      | false =>
        -- there was nothing to go, and nothing to count
        have hzero := h.counted
        rw [Pool.agreementOf_of_noRecord hbefore] at hzero
        simpa [m, hbefore, DataSetRecord.fresh] using hzero
    | true =>
      have hsame := hafter.resolve_left (by rw [hrecord]; decide)
      have hkept : m.removes u = false := Moment.removes_of_known fun _ => hrecord
      rw [hsame, hkept]
      exact ⟨h.bounded, h.room, h.counted⟩
  | claimed hroom hafter hkept haccepts =>
    rw [haccepts true, haccepts false, hkept, hafter]
    exact ⟨h.bounded, fun _ => h.limit ▸ hroom, h.counted⟩
  | succeeded hloading hafter haccepts =>
    rw [haccepts, hafter]
    exact ⟨Nat.zero_le n, nofun, rfl⟩
  | failed t f _ _ _ _ _ hloading hafter hkept haccepts =>
    rw [haccepts true, haccepts false, hkept, hafter]
    exact ⟨h.room hloading, nofun, congrArg (· + 1) h.counted⟩

omit [DecidableEq ι] in
/-- At the limit nothing is being fetched. -/
theorem Pool.Counts.idle_of_spent (h : p.Counts n failures u)
    (hspent : (p.agreementOf u).failCount = n) : (p.agreementOf u).loading = false := by
  refine Bool.eq_false_iff.2 fun hloading => ?_
  have hroom := h.room hloading
  rw [hspent] at hroom
  exact Nat.lt_irrefl n hroom

/-- A count that has reached the limit stays as long as there is a record. -/
theorem Pool.Counts.spent_happen (h : p.Counts n failures u) (hn : 0 < n)
    (hstages : p.InStages settings target refused) {next : Happening ι}
    (hnext : next.LeavesAgreements) (hspent : (p.agreementOf u).failCount = n)
    (hrecord : (p.happen next).hasRecord u = true) :
    ((p.happen next).agreementOf u).failCount = n := by
  have hidle : (p.agreementOf u).loading ≠ true := ne_true_of_eq_false (h.idle_of_spent hspent)
  cases hstages.effect (h.limit ▸ hn) hnext u with
  | spared hafter _ =>
    have hsame : (p.happen next).agreementOf u = p.agreementOf u :=
      hafter.resolve_left fun hgone => absurd (hrecord.symm.trans hgone) (by decide)
    rw [hsame, hspent]
  | claimed hroom _ _ _ =>
    have hroom : (p.agreementOf u).failCount < n := h.limit ▸ hroom
    exact absurd hroom (by rw [hspent]; exact Nat.lt_irrefl n)
  | succeeded hloading _ _ => exact absurd hloading hidle
  | failed _ _ _ _ _ _ _ hloading _ _ _ => exact absurd hloading hidle

/-- A count grows only in the last step of a call that was refused the sets. -/
theorem Pool.Counts.grows_happen (h : p.Counts n failures u) (hn : 0 < n)
    (hstages : p.InStages settings target refused) {next : Happening ι}
    (hnext : next.LeavesAgreements)
    (hgrows : (p.agreementOf u).failCount < ((p.happen next).agreementOf u).failCount) :
    ∃ t f, next = .turn t ∧ target t.call = u ∧ refused t.call f ∧
      ((p.happen next).calls t.call).asked = [setsQuery settings u] ∧
      ((p.happen next).calls t.call).result? =
        some (.error (.agreement (Program.agreementFailure u f))) := by
  cases hstages.effect (h.limit ▸ hn) hnext u with
  | spared hafter _ =>
    exfalso
    rcases hafter with hgone | hsame
    · have hgone : (p.happen next).hasRecord u = false := hgone
      rw [agreementOf_of_noRecord hgone] at hgrows
      exact Nat.not_lt_zero _ hgrows
    · have hsame : (p.happen next).agreementOf u = p.agreementOf u := hsame
      rw [hsame] at hgrows
      exact Nat.lt_irrefl _ hgrows
  | claimed _ hafter _ _ =>
    have hafter : (p.happen next).agreementOf u = { p.agreementOf u with loading := true } := hafter
    rw [hafter] at hgrows
    exact absurd hgrows (Nat.lt_irrefl _)
  | succeeded _ hafter _ =>
    have hafter : (p.happen next).agreementOf u = ⟨false, true, 0, false⟩ := hafter
    rw [hafter] at hgrows
    exact absurd hgrows (Nat.not_lt_zero _)
  | failed t f hturn htarget hrefused hasked hresult _ _ _ _ =>
    exact ⟨t, f, hturn, htarget, hrefused, hasked, hresult⟩

/-- Every call is in a stage throughout, and a call that is left with a failure was refused. -/
theorem Pool.inStages_runAmid (settings : Settings) (target : ι → Uri) (stamps : ι → Stamp)
    (n : Nat) (hs : List (Happening ι)) :
    ((refreshing settings target stamps n).runAmid hs).InStages settings target
      ((refreshing settings target stamps n).Refused settings target hs) := by
  induction hs using List.reverseRecOn with
  | nil => exact fun i => .unclaimed rfl rfl
  | append_singleton hs next ih =>
    have hafter : (refreshing settings target stamps n).runAmid (hs ++ [next]) =
        ((refreshing settings target stamps n).runAmid hs).happen next := runAmid_append _ hs [next]
    intro i
    have hother := (ih i).mono fun f hf => hf.snoc next
    cases next with
    | other m =>
      rw [hafter]
      exact hother
    | turn t =>
      by_cases hi : i = t.call
      · subst hi
        have hcall := ((refreshing settings target stamps n).runAmid hs).calls_turn_self t
        have hstep := (ih t.call).step t.node _
          ((refreshing settings target stamps n).Refused settings target (hs ++ [.turn t]) t.call)
          fun f hbefore hasked hanswer => by
            refine ⟨hs, t, [], rfl, rfl, hbefore, ?_, hanswer⟩
            rw [hafter]
            exact (congrArg Progress.asked hcall).trans hasked
        rw [hafter]
        show Refreshing _ _ _ ((Pool.turn _ t).calls t.call).rest
          ((Pool.turn _ t).calls t.call).asked
        rw [hcall]
        exact hstep.1
      · have hcall := ((refreshing settings target stamps n).runAmid hs).calls_turn_of_ne hi
        rw [hafter]
        show Refreshing _ _ _ ((Pool.turn _ t).calls i).rest ((Pool.turn _ t).calls i).asked
        rw [hcall]
        exact hother

theorem Pool.counts_runAmid (settings : Settings) (target : ι → Uri) (stamps : ι → Stamp)
    (hn : 0 < n) {hs : List (Happening ι)} (hhs : ∀ h ∈ hs, h.LeavesAgreements) (u : Uri) :
    ((refreshing settings target stamps n).runAmid hs).Counts n
      (failuresSince target u ((refreshing settings target stamps n).moments hs)) u := by
  induction hs using List.reverseRecOn with
  | nil => exact ⟨rfl, Nat.zero_le n, nofun, rfl⟩
  | append_singleton hs next ih =>
    simp only [List.mem_append, List.mem_singleton] at hhs
    have hcounts := ih fun h hh => hhs h (Or.inl hh)
    rw [moments_snoc, failuresSince_snoc, runAmid_append]
    exact hcounts.happen hn (inStages_runAmid settings target stamps n hs) (hhs next (Or.inr rfl))

theorem Pool.spent_runAmid (settings : Settings) (target : ι → Uri) (stamps : ι → Stamp)
    (hn : 0 < n) {hs more : List (Happening ι)} (hhs : ∀ h ∈ hs, h.LeavesAgreements)
    (hspent : (((refreshing settings target stamps n).runAmid hs).agreementOf u).failCount = n)
    (hmore : ∀ h ∈ more, h.LeavesAgreements)
    (hrecord : ∀ pre, pre <+: more →
      ((refreshing settings target stamps n).runAmid (hs ++ pre)).hasRecord u = true) :
    (((refreshing settings target stamps n).runAmid (hs ++ more)).agreementOf u).failCount = n := by
  induction more using List.reverseRecOn with
  | nil => rwa [List.append_nil]
  | append_singleton more next ih =>
    obtain ⟨hmore, hnext⟩ := List.forall_mem_append.1 hmore
    have hcount := ih hmore fun pre hpre => hrecord pre (hpre.trans (List.prefix_append _ _))
    have hcounts := counts_runAmid settings target stamps hn
      (List.forall_mem_append.2 ⟨hhs, hmore⟩) u
    have hstages := inStages_runAmid settings target stamps n (hs ++ more)
    have hafter := hrecord (more ++ [next]) (List.prefix_refl _)
    rw [← List.append_assoc, runAmid_append] at hafter ⊢
    exact hcounts.spent_happen hn hstages (List.forall_mem_singleton.1 hnext) hcount hafter

end

/-! ## The budget -/

/-- After a run, the failures of the agreement data of a connection are bounded and counted as they
should be. -/
structure Pool.KeepsBudget (start : Pool ι Refresh) (settings : Settings) (target : ι → Uri)
    (n : Nat) (hs : List (Happening ι)) (u : Uri) : Prop where
  bounded : ((start.runAmid hs).agreementOf u).failCount ≤ n
  counted : ((start.runAmid hs).agreementOf u).failCount =
    failuresSince target u (start.moments hs)
  /-- Once the limit is reached, nothing is fetched until the record goes. -/
  spent : ((start.runAmid hs).agreementOf u).failCount = n →
    ∀ more : List (Happening ι), (∀ h ∈ more, h.LeavesAgreements) →
      (∀ pre, pre <+: more → (start.runAmid (hs ++ pre)).hasRecord u = true) →
        ((start.runAmid (hs ++ more)).agreementOf u).failCount = n ∧
          ((start.runAmid (hs ++ more)).agreementOf u).loading = false
  /-- One more failure is counted only when a call reports that it was refused the sets, which is
  all that it asked for. -/
  grows : ∀ next : Happening ι, next.LeavesAgreements →
    ((start.runAmid hs).agreementOf u).failCount <
        ((start.runAmid (hs ++ [next])).agreementOf u).failCount →
      ∃ t f, next = .turn t ∧ target t.call = u ∧ start.Refused settings target hs t.call f ∧
        ((start.runAmid (hs ++ [next])).calls t.call).asked = [setsQuery settings u] ∧
        ((start.runAmid (hs ++ [next])).calls t.call).result? =
          some (.error (.agreement (Program.agreementFailure u f)))
  /-- A step of a call concerns nothing but its connection and the record of its agreement data. -/
  apart : ∀ t, (start.runAmid hs).session.ReachesOnly
    (start.runAmid (hs ++ [.turn t])).session (target t.call)

/-- The failures of agreement data are kept within their limit, whatever happens between the steps
of any number of calls. -/
theorem Pool.keepsBudget_refreshing (settings : Settings) (target : ι → Uri) (stamps : ι → Stamp)
    {n : Nat} (hn : 1 ≤ n) {hs : List (Happening ι)} (hhs : ∀ h ∈ hs, h.LeavesAgreements)
    (u : Uri) : (refreshing settings target stamps n).KeepsBudget settings target n hs u := by
  let start := refreshing settings target stamps n
  have hcounts {hs : List (Happening ι)} (hhs : ∀ h ∈ hs, h.LeavesAgreements) :=
    counts_runAmid settings target stamps hn hhs u
  have hstages := inStages_runAmid settings target stamps n
  have hsnoc (hs : List (Happening ι)) (next : Happening ι) :
      start.runAmid (hs ++ [next]) = (start.runAmid hs).happen next :=
    start.runAmid_append hs [next]
  constructor
  case bounded => exact (hcounts hhs).bounded
  case counted => exact (hcounts hhs).counted
  case spent =>
    intro hspent more hmore hrecord
    have hcount := spent_runAmid settings target stamps hn hhs hspent hmore hrecord
    exact ⟨hcount, (hcounts (List.forall_mem_append.2 ⟨hhs, hmore⟩)).idle_of_spent hcount⟩
  case grows =>
    intro next hnext hgrows
    rw [hsnoc] at hgrows ⊢
    exact (hcounts hhs).grows_happen hn (hstages hs) hnext hgrows
  case apart =>
    intro t
    rw [hsnoc]
    exact (hstages hs).reachesOnly t

end

/-! ## A refusal -/

/-- A node that refuses everything. -/
def refusing : Node := fun _ => .error ⟨some 503, "busy"⟩

/-- A message makes the connection; then a call claims its agreement data, asks for the sets in vain
and reports that. -/
def refusedOnce : List (Happening Bool) :=
  [.other (.event (.messageReceived ⟨"c"⟩
    { Message.bare ⟨"m"⟩ .connect .incoming with
      senderSocket := some ⟨"peer#s"⟩
      targetSocket := some ⟨"own#s"⟩ })),
    .turn ⟨false, refusing⟩, .turn ⟨false, refusing⟩, .turn ⟨false, refusing⟩]

/-- Two calls for the same connection, of a client that puts up with one failure. -/
def impatient : Pool Bool Refresh :=
  .refreshing .default (fun _ => ⟨"c"⟩) (fun _ => ⟨"e", 0⟩) 1

/-- After the refusal the failures are used up, and the other call claims nothing. -/
theorem Pool.keepsBudget_refreshing_refusedOnce :
    (∀ h ∈ refusedOnce, h.LeavesAgreements) ∧
      (impatient.runAmid refusedOnce).agreementOf ⟨"c"⟩ = ⟨false, false, 1, false⟩ ∧
      failuresSince (fun _ => ⟨"c"⟩) ⟨"c"⟩ (impatient.moments refusedOnce) = 1 ∧
      ((impatient.runAmid (refusedOnce ++ [.turn ⟨true, refusing⟩])).agreementOf ⟨"c"⟩).loading =
        false := by
  have hleaves : ∀ h ∈ refusedOnce, h.LeavesAgreements := by
    simp only [refusedOnce, List.forall_mem_cons]
    exact ⟨.event _ rfl, trivial, trivial, trivial, List.forall_mem_nil _⟩
  have hafter : (impatient.runAmid refusedOnce).agreementOf ⟨"c"⟩ = ⟨false, false, 1, false⟩ := by
    decide +kernel
  have hbudget : impatient.KeepsBudget .default (fun _ => ⟨"c"⟩) 1 refusedOnce ⟨"c"⟩ :=
    keepsBudget_refreshing .default (fun _ => ⟨"c"⟩) (fun _ => ⟨"e", 0⟩) (Nat.le_refl 1) hleaves _
  have hrecord (pre : List (Happening Bool)) (hpre : pre <+: [.turn ⟨true, refusing⟩]) :
      (impatient.runAmid (refusedOnce ++ pre)).hasRecord ⟨"c"⟩ = true := by
    rcases List.prefix_cons_iff.1 hpre with rfl | ⟨rest, rfl, hrest⟩
    · decide +kernel
    · rw [List.prefix_nil.1 hrest]
      decide +kernel
  refine ⟨hleaves, hafter, hbudget.counted.symm.trans (by rw [hafter]), ?_⟩
  have hspent := hbudget.spent (by rw [hafter]) [.turn ⟨true, refusing⟩]
    (List.forall_mem_singleton.2 trivial) hrecord
  exact hspent.2

end Parley
