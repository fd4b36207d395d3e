/-
Whether a call that claims what it fetches gives the claim back. A call that runs to its end alone
reports what the node answered, and that ends the fetch it claimed: under the requested identifier
where the answer has none of its own, or where the fetch failed. The document of an atom or of a
connection is taken in under the identifier it bears. Main statement: afterwards the fetch is not in
flight any more, and may start again, exactly if the node answered with no document of another
identifier; a document of another one leaves the claim standing.
-/
import Parley.Proofs.Agreement.Refresh
import Parley.Proofs.Loading.Deletion
import Parley.Proofs.Session.LateCompletion
import Parley.Proofs.Session.Owners

namespace Parley

open Loading

/-! ## What a report does to the fetches in flight -/

namespace Loading.Tracker

theorem Reports.idle {t : Tracker} {f : Fetch} {r : Answer × Tracker} (h : t.Reports f r) :
    r.2.inFlight f = false := by
  refine Bool.eq_false_iff.2 fun hf => ?_
  exact ((h.2 f).1 hf).1 rfl

theorem inFlight_complete_iff (t : Tracker) (kind : ResourceKind) (u v : Uri)
    (status : Option FetchAnswer) :
    (t.complete kind v status).2.inFlight (.resource kind u) = true ↔
      u ≠ v ∧ t.inFlight (.resource kind u) = true := by
  refine ((t.reports_complete kind v status).2 (.resource kind u)).trans ?_
  simp

/-- Whether the failure is recorded or the resource was deleted, it is not being fetched any
more. -/
theorem idle_fail (t : Tracker) {kind : ResourceKind} (hkind : kind ≠ .external) (u : Uri)
    (status : FetchAnswer) : (t.fail kind u status).2.inFlight (.resource kind u) = false := by
  by_cases hgone : status.saysGone = true
  · obtain ⟨r, hr, hremoves⟩ := t.removes_fail hkind u hgone
    have hgoes : t.goesWith kind u kind u = true := by
      cases kind with
      | atom | container | connection => simp [goesWith, goesWithAtom]
      | external => exact absurd rfl hkind
    have hnone : r.2.load? kind u = none := (hremoves.load? kind u).trans (if_pos hgoes)
    rw [hr]
    simp [inFlight, isIn, phase?, hnone]
  · exact (t.reports_fail kind u (by simp [hgone])).idle

end Loading.Tracker

namespace Session

variable (s : Session)

theorem idle_takeFailure {kind : ResourceKind} (hkind : kind ≠ .external) (u : Uri)
    (e : NodeFailure) : (s.takeFailure kind u e).tracker.inFlight (.resource kind u) = false := by
  rw [tracker_takeFailure]
  exact s.tracker.idle_fail hkind u e.toStatus

theorem idle_takeContainer (atom : Uri) (data : List ConnectionDocument) :
    (s.takeContainer atom data).tracker.inFlight (.resource .container atom) = false :=
  (allowsMessages_sameFlights.takeContainer s atom data _).trans
    (s.tracker.reports_completeContainer atom _).idle

/-- The fetch of an atom is ended by the document of the atom. -/
theorem inFlight_takeAtom_iff (data : AtomDocument) (u : Uri) :
    (s.takeAtom data).tracker.inFlight (.resource .atom u) = true ↔
      u ≠ data.uri ∧ s.tracker.inFlight (.resource .atom u) = true := by
  refine Iff.trans (Bool.eq_iff_iff.1 ?_) (s.tracker.inFlight_complete_iff .atom u data.uri none)
  unfold takeAtom
  split
  · rename_i t h
    rw [h, Tracker.complete_of_refused h]
  · rename_i t h
    rw [h]
    split
    · -- an atom that says it is deleted takes its own record along, and no other atom's
      show (t.forgetAtom data.uri).2.inFlight (.resource .atom u) = t.inFlight (.resource .atom u)
      have hload := (t.removes_forgetAtom data.uri).load? .atom u
      by_cases hu : u = data.uri
      · subst hu
        have hidle := (s.tracker.reports_complete .atom data.uri none).idle
        rw [h] at hidle
        refine Eq.trans ?_ hidle.symm
        simp [Tracker.inFlight, Tracker.isIn, Tracker.phase?, hload, Tracker.goesWithAtom]
      · simp [Tracker.inFlight, Tracker.isIn, Tracker.phase?, hload, Tracker.goesWithAtom, hu]
    · rfl

/-- The fetch of a connection is ended by the document of the connection. -/
theorem inFlight_takeConnection_iff (data : ConnectionDocument) (u : Uri) :
    (s.takeConnection data).tracker.inFlight (.resource .connection u) = true ↔
      u ≠ data.uri ∧ s.tracker.inFlight (.resource .connection u) = true :=
  (Bool.eq_iff_iff.1 (allowsMessages_sameFlights.takeConnection s data _)).trans
    (s.tracker.inFlight_complete_iff .connection u data.uri none)

end Session

/-! ## Calls that fetch -/

namespace Program

variable {α β : Type}

/-- Whether a call asks the node something before it ends. -/
def Asks (stamp : Stamp) (p : Program α) (s : Session) : Prop :=
  ∃ r next s', p.advance stamp s = (.waiting r next, s')

theorem not_asks_of_finished {stamp : Stamp} {p : Program α} {s s' : Session} {a : α}
    (h : p.advance stamp s = (.finished a, s')) : ¬ p.Asks stamp s := by
  rintro ⟨r, next, s'', h'⟩
  cases h.symm.trans h'

end Program

/-- No other call, and a node that may answer every question differently. -/
def Surroundings.undisturbed (stamp : Stamp) (nodes : Nat → Node) : Surroundings :=
  ⟨stamp, nodes, fun _ => []⟩

/-- A call that asks something goes on with the answer from where it asked. -/
theorem Program.runAmong_of_waiting {α : Type} {stamp : Stamp} {nodes : Nat → Node} {p : Program α}
    {s s' : Session} {r : Request} {next : Except NodeFailure r.Answer → Program α}
    (h : p.advance stamp s = (.waiting r next, s')) :
    (p.runAmong (.undisturbed stamp nodes) s).2.2 =
      ((next (nodes 0 r)).runAmong (.undisturbed stamp fun n => nodes (n + 1)) s').2.2 := by
  induction p generalizing s with
  | done a => cases h
  | stamp next ih => exact ih stamp h
  | atomic update next ih => exact ih s h
  | ask r' next' ih =>
    cases h
    rfl

/-- The calls that claim what they fetch. -/
inductive Fetching where
  | atom (uri : Uri)
  /-- The connections of an atom. -/
  | container (uri : Uri)
  | connection (uri : Uri)
  | messages (connection : Uri)
  | agreements (connection : Uri)

namespace Fetching

/-- What a call answers. -/
abbrev Result : Fetching → Type
  | .agreements _ => Call.Refresh
  | _ => Call.LoadResult

def call (settings : Settings) : (c : Fetching) → Program c.Result
  | .atom u => Call.loadAtom u
  | .container u => Call.loadContainer u
  | .connection u => Call.loadConnection u
  | .messages u => Call.loadMessages u
  | .agreements u => Call.refreshAgreements settings u

/-- What a call claims. -/
def slot : Fetching → Fetch
  | .atom u => .resource .atom u
  | .container u => .resource .container u
  | .connection u => .resource .connection u
  | .messages u => .page u
  | .agreements u => .dataSet u .agreementData

/-- Agreement data is claimed for known connections, and until its failures are used up. -/
def Permitted (s : Session) : Fetching → Prop
  | .agreements u => s.connections.contains u = true ∧ s.tracker.mayRetry u .agreementData = true
  | _ => True

/-- The node answers with no document of another identifier than the one that was asked for. -/
def AnsweredByName (node : Node) : Fetching → Prop
  | .atom u => ∀ data : AtomDocument, node (.fetchAtom u) = .ok data → data.uri = u
  | .connection u =>
    ∀ data : ConnectionDocument, node (.fetchConnection u) = .ok data → data.uri = u
  | _ => True

/-- The events by which a call may report what the node answered. -/
def ReportedBy (node : Node) : Fetching → Event → Prop
  | .atom u, e => (∃ data, node (.fetchAtom u) = .ok data ∧ e = .atomLoaded data) ∨
      ∃ f, node (.fetchAtom u) = .error f ∧ e = .atomLoadFailed u f
  | .container u, e => (∃ data, e = .containerLoaded u data) ∨ ∃ f, e = .containerLoadFailed u f
  | .connection u, e =>
    (∃ data, node (.fetchConnection u) = .ok data ∧ e = .connectionLoaded data) ∨
      ∃ f, node (.fetchConnection u) = .error f ∧ e = .connectionLoadFailed u f
  | .messages u, e => (∃ page, e = .messagesLoaded u page) ∨
      ∃ cursor f, e = .messagesLoadFailed u [] cursor f
  | .agreements u, e => (∃ r : Reconciliation, e = .agreementReconciled u r.view r.fetched) ∨
      e = .agreementFailed u

/-- The report of a call ends what the call claimed exactly if it is not the document of something
else. -/
theorem idle_apply_iff {node : Node} {c : Fetching} {e : Event} (h : c.ReportedBy node e)
    {s : Session} (hbusy : s.tracker.inFlight c.slot = true) :
    (s.apply e).tracker.inFlight c.slot = false ↔ c.AnsweredByName node := by
  -- an answer that is no document bears no identifier
  have hunnamed {α : Type} {answer : Except NodeFailure α} {f : NodeFailure} {P : α → Prop}
      (hf : answer = .error f) : ∀ data, answer = .ok data → P data := by
    intro data hdata
    rw [hf] at hdata
    cases hdata
  -- the document is the only one that the node answered with
  have hnamed {α : Type} {answer : Except NodeFailure α} {data : α} {P : α → Prop}
      (hdata : answer = .ok data) : (∀ data, answer = .ok data → P data) ↔ P data := by
    rw [hdata]
    exact ⟨fun h => h data rfl, fun h _ e => Except.ok.inj e ▸ h⟩
  let counted : Session := { s with version := s.version + 1 }
  have hended {after : Bool} {u v : Uri}
      (h : after = true ↔ u ≠ v ∧ s.tracker.inFlight c.slot = true) : after = false ↔ v = u := by
    rw [← Bool.not_eq_true, h, and_iff_left hbusy, ne_eq, not_not, eq_comm]
  cases c with
  | atom u =>
    rcases h with ⟨data, hdata, rfl⟩ | ⟨f, hf, rfl⟩
    · have htaken := counted.inFlight_takeAtom_iff data u
      exact (hended htaken).trans (Iff.symm (hnamed hdata))
    · exact iff_of_true (counted.idle_takeFailure (by decide) u f) (hunnamed hf)
  | connection u =>
    rcases h with ⟨data, hdata, rfl⟩ | ⟨f, hf, rfl⟩
    · have htaken := counted.inFlight_takeConnection_iff data u
      exact (hended htaken).trans (Iff.symm (hnamed hdata))
    · exact iff_of_true (counted.idle_takeFailure (by decide) u f) (hunnamed hf)
  | container u =>
    rcases h with ⟨data, rfl⟩ | ⟨f, rfl⟩
    · exact iff_of_true (counted.idle_takeContainer u data) trivial
    · exact iff_of_true (counted.idle_takeFailure (by decide) u f) trivial
  | messages u =>
    rcases h with ⟨page, rfl⟩ | ⟨cursor, f, rfl⟩
    · let taken := (Message.chronological page.messages).foldl (fun s m => s.takeMessage u m) counted
      have hlanded :=
        (taken.tracker.reports_completePage u (page.messages.map (·.uri)) page.nextPage).idle
      exact iff_of_true hlanded trivial
    · exact iff_of_true (s.tracker.reports_failPage u [] cursor f.toStatus).idle trivial
  | agreements u =>
    rcases h with ⟨r, rfl⟩ | rfl
    · exact iff_of_true (s.tracker.reports_completeDataSet u .agreementData).idle trivial
    · exact iff_of_true (s.tracker.reports_failDataSet u .agreementData).idle trivial

end Fetching

/-! ## Claims -/

namespace Call

open Program

variable {stamp : Stamp} {nodes : Nat → Node} {s : Session} {u : Uri}

section

variable {kind : ResourceKind} {r : Request} {loaded : r.Answer → Event}
  {failed : NodeFailure → Event}

/-- What is left of a load after its claim was answered. -/
def goOnLoading (r : Request) (loaded : r.Answer → Event) (failed : NodeFailure → Event) :
    Claim → Program LoadResult
  | .alreadyLoading => .done .alreadyLoading
  | .started => .ask r fun
    | .ok data => .atomic (·.apply (loaded data)) fun _ => .done .loaded
    | .error e => .atomic (·.apply (failed e)) fun _ => .done (.ofError e)

theorem claim_answer (t : Tracker) (kind : ResourceKind) (u : Uri) :
    (t.claim kind u).1 = if t.inFlight (.resource kind u) then .alreadyLoading else .started :=
  Answer.claim.inj (t.claims_claim kind u).1

theorem advance_load : (load kind u r loaded failed).advance stamp s =
    (goOnLoading r loaded failed
      (if s.tracker.inFlight (.resource kind u) then .alreadyLoading else .started)).advance stamp
      { s with tracker := (s.tracker.claim kind u).2 } := by
  rw [← claim_answer]
  rfl

theorem asks_load_iff : (load kind u r loaded failed).Asks stamp s ↔
    s.tracker.inFlight (.resource kind u) = false := by
  have hadvance : (load kind u r loaded failed).advance stamp s = _ := advance_load
  cases hflight : s.tracker.inFlight (.resource kind u) with
  | false =>
    rw [hflight] at hadvance
    exact iff_of_true ⟨_, _, _, hadvance⟩ rfl
  | true =>
    rw [hflight] at hadvance
    exact iff_of_false (not_asks_of_finished hadvance) nofun

/-- A load that is granted its claim reports what the node answered. -/
theorem exists_report_load (hidle : s.tracker.inFlight (.resource kind u) = false) :
    ∃ (claimed : Session) (e : Event), claimed.tracker.inFlight (.resource kind u) = true ∧
      ((load kind u r loaded failed).runAmong (.undisturbed stamp nodes) s).2.2 =
        claimed.apply e ∧
      ((∃ data, nodes 0 r = .ok data ∧ e = loaded data) ∨
        ∃ f, nodes 0 r = .error f ∧ e = failed f) := by
  have hclaimed := ((s.tracker.claims_claim kind u).2 (.resource kind u)).2 (Or.inl rfl)
  have hadvance : (load kind u r loaded failed).advance stamp s = _ := advance_load
  rw [hidle] at hadvance
  refine ⟨{ s with tracker := (s.tracker.claim kind u).2 }, ?_⟩
  rw [runAmong_of_waiting hadvance]
  cases hnode : nodes 0 r with
  | ok data => exact ⟨loaded data, hclaimed, rfl, Or.inl ⟨data, rfl, rfl⟩⟩
  | error f => exact ⟨failed f, hclaimed, rfl, Or.inr ⟨f, rfl, rfl⟩⟩

end

/-! ### Pages of messages -/

/-- What is left of the load of a page after its claim was answered. -/
def goOnPaging (u : Uri) : Option (Option String) → Program LoadResult
  | none => .done .alreadyLoading
  | some cursor => .ask (.fetchMessages u cursor) fun
    | .ok (page : Page) => .atomic (·.apply (.messagesLoaded u page)) fun _ => .done .loaded
    | .error e => .atomic (·.apply (.messagesLoadFailed u [] cursor e)) fun _ => .done (.failed e)

theorem advance_loadMessages : (loadMessages u).advance stamp s =
    (goOnPaging u (claimCursor u s.tracker).1).advance stamp
      { s with tracker := (s.tracker.claimPage u).2 } := by
  rw [← claimCursor_snd]
  rfl

theorem claimCursor_of_busy {t : Tracker} (h : t.inFlight (.page u) = true) :
    (claimCursor u t).1 = none := by
  have hanswer : (t.claimPage u).1 = _ := Answer.claim.inj (t.claims_claimPage u).1
  rw [h] at hanswer
  unfold claimCursor
  split
  · rfl
  · rename_i hclaim
    rw [hclaim] at hanswer
    cases hanswer

theorem claimCursor_of_idle {t : Tracker} (h : t.inFlight (.page u) = false) :
    ∃ cursor, (claimCursor u t).1 = some cursor := by
  have hanswer : (t.claimPage u).1 = _ := Answer.claim.inj (t.claims_claimPage u).1
  rw [h] at hanswer
  unfold claimCursor
  split
  · rename_i hclaim
    rw [hclaim] at hanswer
    cases hanswer
  · exact ⟨_, rfl⟩

theorem asks_loadMessages_iff :
    (loadMessages u).Asks stamp s ↔ s.tracker.inFlight (.page u) = false := by
  have hadvance : (loadMessages u).advance stamp s = _ := advance_loadMessages
  cases hflight : s.tracker.inFlight (.page u) with
  | false =>
    obtain ⟨cursor, hcursor⟩ := claimCursor_of_idle hflight
    rw [hcursor] at hadvance
    exact iff_of_true ⟨_, _, _, hadvance⟩ rfl
  | true =>
    rw [claimCursor_of_busy hflight] at hadvance
    exact iff_of_false (not_asks_of_finished hadvance) nofun

theorem exists_report_loadMessages (hidle : s.tracker.inFlight (.page u) = false) :
    ∃ (claimed : Session) (e : Event), claimed.tracker.inFlight (.page u) = true ∧
      ((loadMessages u).runAmong (.undisturbed stamp nodes) s).2.2 = claimed.apply e ∧
      ((∃ page, e = .messagesLoaded u page) ∨
        ∃ cursor f, e = .messagesLoadFailed u [] cursor f) := by
  have hclaimed := ((s.tracker.claims_claimPage u).2 (.page u)).2 (Or.inl rfl)
  have hadvance : (loadMessages u).advance stamp s = _ := advance_loadMessages
  obtain ⟨cursor, hcursor⟩ := claimCursor_of_idle hidle
  rw [hcursor] at hadvance
  refine ⟨{ s with tracker := (s.tracker.claimPage u).2 }, ?_⟩
  rw [runAmong_of_waiting hadvance]
  cases nodes 0 (.fetchMessages u cursor) with
  | ok page => exact ⟨.messagesLoaded u page, hclaimed, rfl, Or.inl ⟨page, rfl⟩⟩
  | error f => exact ⟨.messagesLoadFailed u [] cursor f, hclaimed, rfl, Or.inr ⟨cursor, f, rfl⟩⟩

/-! ### Agreement data -/

theorem advance_refreshAgreements (settings : Settings) :
    (refreshAgreements settings u).advance stamp s =
      (goOn settings u (claimAgreement u s).1).advance stamp (claimAgreement u s).2 :=
  rfl

/-- A claim of agreement data is granted exactly if the connection is known, its failures are not
used up, and no reconciliation is running. -/
theorem claimAgreement_granted_iff : (∃ inputs, (claimAgreement u s).1 = .ok (some inputs)) ↔
    (s.connections.contains u = true ∧ s.tracker.mayRetry u .agreementData = true) ∧
      s.tracker.inFlight (.dataSet u .agreementData) = false := by
  have hanswer : (s.tracker.claimDataSet u .agreementData).1 = _ :=
    Answer.claim.inj (s.tracker.claims_claimDataSet u .agreementData).1
  unfold claimAgreement connection UriMap.contains
  cases hc : s.connections.get? u with
  | none => simp
  | some c =>
    cases hretry : s.tracker.mayRetry u .agreementData with
    | false => simp
    | true =>
      rcases hclaim : s.tracker.claimDataSet u .agreementData with ⟨answer, t⟩
      rw [hclaim] at hanswer
      obtain rfl : answer = _ := hanswer
      cases s.tracker.inFlight (.dataSet u .agreementData) <;> simp

theorem claimAgreement_of_granted {inputs : Inputs}
    (h : (claimAgreement u s).1 = .ok (some inputs)) :
    (claimAgreement u s).2 = { s with tracker := (s.tracker.claimDataSet u .agreementData).2 } := by
  unfold claimAgreement at h ⊢
  cases hc : connection s u with
  | error f =>
    rw [hc] at h
    cases h
  | ok c =>
    rw [hc] at h
    by_cases hretry : s.tracker.mayRetry u .agreementData = true
    · rcases hclaim : s.tracker.claimDataSet u .agreementData with ⟨_ | _, t⟩
      · simp [hretry]
      · simp [hretry]
    · simp [hretry] at h

theorem asks_refreshAgreements_iff {settings : Settings} :
    (refreshAgreements settings u).Asks stamp s ↔
      (s.connections.contains u = true ∧ s.tracker.mayRetry u .agreementData = true) ∧
        s.tracker.inFlight (.dataSet u .agreementData) = false := by
  have hadvance : (refreshAgreements settings u).advance stamp s = _ :=
    advance_refreshAgreements settings
  rw [← claimAgreement_granted_iff]
  rcases hanswer : (claimAgreement u s).1 with f | _ | inputs
  · rw [hanswer] at hadvance
    exact iff_of_false (not_asks_of_finished hadvance) nofun
  · rw [hanswer] at hadvance
    exact iff_of_false (not_asks_of_finished hadvance) nofun
  · rw [hanswer] at hadvance
    obtain ⟨next, hnext, -⟩ := reconcileAndReport_eq settings u inputs
    refine iff_of_true ⟨setsQuery settings u, next, (claimAgreement u s).2, ?_⟩ ⟨inputs, rfl⟩
    rw [hadvance, goOn, hnext]
    rfl

theorem exists_report_refreshAgreements {settings : Settings}
    (hpermitted : s.connections.contains u = true ∧ s.tracker.mayRetry u .agreementData = true)
    (hidle : s.tracker.inFlight (.dataSet u .agreementData) = false) :
    ∃ (claimed : Session) (e : Event),
      claimed.tracker.inFlight (.dataSet u .agreementData) = true ∧
      ((refreshAgreements settings u).runAmong (.undisturbed stamp nodes) s).2.2 =
        claimed.apply e ∧
      ((∃ r : Reconciliation, e = .agreementReconciled u r.view r.fetched) ∨
        e = .agreementFailed u) := by
  obtain ⟨inputs, hinputs⟩ := claimAgreement_granted_iff.2 ⟨hpermitted, hidle⟩
  have hclaimed : (claimAgreement u s).2.tracker.inFlight (.dataSet u .agreementData) = true := by
    rw [claimAgreement_of_granted hinputs]
    exact ((s.tracker.claims_claimDataSet u .agreementData).2 _).2 (Or.inl rfl)
  have hrun : ((refreshAgreements settings u).runAmong (.undisturbed stamp nodes) s).2.2 =
      ((reconcileAndReport settings u inputs).runAmong (.undisturbed stamp nodes)
        (claimAgreement u s).2).2.2 := by
    rw [refreshAgreements_eq]
    show ((goOn settings u (claimAgreement u s).1).runAmong (.undisturbed stamp nodes)
      (claimAgreement u s).2).2.2 = _
    rw [hinputs]
    rfl
  refine ⟨(claimAgreement u s).2, ?_⟩
  rw [hrun]
  obtain ⟨outcome, e', hasked, hothers⟩ := runAmong_ofInquiry settings
    (reconcile u inputs.ownAtom inputs.store settings.maxDepth inputs.previous)
    (.undisturbed stamp nodes) (claimAgreement u s).2
  have hreported := runAmong_bind (ofInquiry settings
    (reconcile u inputs.ownAtom inputs.store settings.maxDepth inputs.previous)) (report u)
    (.undisturbed stamp nodes) (claimAgreement u s).2
  rw [hasked] at hreported
  -- the node is asked without an atomic step, so nothing happens before the report
  cases outcome with
  | ok r =>
    refine ⟨.agreementReconciled u r.view r.fetched, hclaimed, ?_, Or.inl ⟨r, rfl⟩⟩
    refine (congrArg (fun run => run.2.2) hreported).trans ?_
    show ((claimAgreement u s).2.moves (e'.others 0)).apply
      (.agreementReconciled u r.view r.fetched) = _
    rw [hothers]
    rfl
  | error f =>
    refine ⟨.agreementFailed u, hclaimed, ?_, Or.inr rfl⟩
    refine (congrArg (fun run => run.2.2) hreported).trans ?_
    show ((claimAgreement u s).2.moves (e'.others 0)).apply (.agreementFailed u) = _
    rw [hothers]
    rfl

end Call

namespace Fetching

variable (settings : Settings) (stamp : Stamp) (nodes : Nat → Node)

/-- A call asks the node exactly if it may, and if what it claims is not in flight. -/
theorem asks_iff (c : Fetching) (s : Session) :
    (c.call settings).Asks stamp s ↔ c.Permitted s ∧ s.tracker.inFlight c.slot = false := by
  cases c with
  | atom u | container u | connection u =>
    exact Call.asks_load_iff.trans (and_iff_right trivial).symm
  | messages u => exact Call.asks_loadMessages_iff.trans (and_iff_right trivial).symm
  | agreements u => exact Call.asks_refreshAgreements_iff

/-- A call that asks the node has claimed what it fetches, and reports what the node answered. -/
theorem exists_report {c : Fetching} {s : Session} (h : (c.call settings).Asks stamp s) :
    ∃ (claimed : Session) (e : Event), claimed.tracker.inFlight c.slot = true ∧
      ((c.call settings).runAmong (.undisturbed stamp nodes) s).2.2 = claimed.apply e ∧
      c.ReportedBy (nodes 0) e := by
  obtain ⟨hpermitted, hidle⟩ := (c.asks_iff settings stamp s).1 h
  cases c with
  | atom u => exact Call.exists_report_load hidle
  | container u =>
    obtain ⟨claimed, e, hclaimed, hrun, hreport⟩ := Call.exists_report_load hidle
    refine ⟨claimed, e, hclaimed, hrun, hreport.imp ?_ ?_⟩
    · rintro ⟨data, -, he⟩
      exact ⟨data, he⟩
    · rintro ⟨f, -, he⟩
      exact ⟨f, he⟩
  | connection u => exact Call.exists_report_load hidle
  | messages u => exact Call.exists_report_loadMessages hidle
  | agreements u => exact Call.exists_report_refreshAgreements hpermitted hidle

/-- After a call that asked the node and ran to its end alone, what it claimed is not in flight any
more, and may be fetched again, exactly if the node answered with no document of something else. -/
theorem claim_released_iff (c : Fetching) (s : Session)
    (h : (c.call settings).Asks stamp s) :
    let s' := ((c.call settings).runAmong (.undisturbed stamp nodes) s).2.2
    (s'.tracker.inFlight c.slot = false ↔ c.AnsweredByName (nodes 0)) ∧
      ((c.call settings).Asks stamp s' ↔ c.Permitted s' ∧ c.AnsweredByName (nodes 0)) := by
  obtain ⟨claimed, e, hclaimed, hrun, hreport⟩ := exists_report settings stamp nodes h
  have hreleased := idle_apply_iff hreport hclaimed
  rw [← hrun] at hreleased
  exact ⟨hreleased, (c.asks_iff settings stamp _).trans (and_congr_right' hreleased)⟩

/-- A node that has one atom, and delivers it whichever atom it is asked for. -/
def oneAtomNode : Node
  | .fetchAtom _ => .ok ⟨⟨"b"⟩, .active, [], false⟩
  | _ => .error ⟨none, "unreachable"⟩

/-- The load of the atom gives its claim back, and that of another atom does not. -/
theorem claim_released_iff_oneAtomNode :
    let after (u : Uri) := (((Fetching.atom u).call .default).runAmong
      (.undisturbed ⟨"e", 0⟩ fun _ => oneAtomNode) (.start 3)).2.2
    (∀ u, ((Fetching.atom u).call .default).Asks ⟨"e", 0⟩ (.start 3)) ∧
      ((Fetching.atom ⟨"b"⟩).call .default).Asks ⟨"e", 0⟩ (after ⟨"b"⟩) ∧
      ¬ ((Fetching.atom ⟨"a"⟩).call .default).Asks ⟨"e", 0⟩ (after ⟨"a"⟩) := by
  have hasks (u : Uri) : ((Fetching.atom u).call .default).Asks ⟨"e", 0⟩ (.start 3) :=
    (asks_iff _ _ _ _).2 ⟨trivial, rfl⟩
  obtain ⟨-, hnamed⟩ := claim_released_iff .default ⟨"e", 0⟩ (fun _ => oneAtomNode)
    (.atom ⟨"b"⟩) (.start 3) (hasks _)
  obtain ⟨-, hother⟩ := claim_released_iff .default ⟨"e", 0⟩ (fun _ => oneAtomNode)
    (.atom ⟨"a"⟩) (.start 3) (hasks _)
  refine ⟨hasks, hnamed.2 ⟨trivial, ?_⟩, fun h => ?_⟩
  · intro data hdata
    cases hdata
    rfl
  · have hname := (hother.1 h).2 _ rfl
    exact absurd hname (by decide)

/-- An atom whose document bears another identifier stays in flight: its load is over, and the next
one finds it in flight, asks nothing and changes nothing. -/
theorem claim_kept_by_other_document :
    let load := Call.loadAtom ⟨"a"⟩
    let s := (load.run ⟨"e", 0⟩ oneAtomNode (.start 3)).2
    load.asked ⟨"e", 0⟩ oneAtomNode (.start 3) = [.fetchAtom ⟨"a"⟩] ∧
      (load.run ⟨"e", 0⟩ oneAtomNode (.start 3)).1 = .loaded ∧
      s.tracker.phase? .atom ⟨"a"⟩ = some .loading ∧
      load.asked ⟨"e", 0⟩ oneAtomNode s = [] ∧
      load.run ⟨"e", 0⟩ oneAtomNode s = (.alreadyLoading, s) :=
  ⟨rfl, rfl, rfl, rfl, rfl⟩

end Fetching

end Parley
