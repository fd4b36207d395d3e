/-
The operations on the load records and what each of them does to the fetches in flight. An operation
plays one of four roles: it claims a fetch, it reports one, it deletes records, or it does none of
these. A claim is granted exactly if the fetch is not in flight, and puts it in flight; a report is
accepted exactly if the fetch is in flight, and lands it; a deletion ends the fetches whose record
it takes away; and everything else leaves the fetches in flight as they are.

So whether a fetch is in flight after a step is decided by whether it was, and by whether the step
starts it, lands it or drops its record. This is all that a run of operations needs to know.
-/
import Parley.Proofs.Loading.Deletion
import Parley.Proofs.Loading.InFlight

namespace Parley.Loading

/-! ## Operations and their answers -/

/-- An operation on the load records. Looking something up is none, as it changes nothing. -/
inductive Operation where
  | flag (kind : ResourceKind) (uri : Uri)
  | claim (kind : ResourceKind) (uri : Uri)
  | complete (kind : ResourceKind) (uri : Uri) (status : Option FetchAnswer)
  | fail (kind : ResourceKind) (uri : Uri) (status : FetchAnswer)
  | forgetAtom (atom : Uri)
  | forgetConnection (connection : Uri)
  | forgetAll
  | beginEdit (atom : Uri)
  | endEdit (atom : Uri)
  | flagParticipants (message : Message)
  | completeContainer (atom : Uri) (connections : List (Uri × Option Uri))
  | assignOwner (connection atom : Uri)
  | claimPage (connection : Uri)
  | completePage (connection : Uri) (messages : List Uri) (nextPage : Option String)
  | failPage (connection : Uri) (messages : List Uri) (nextPage : Option String)
      (status : FetchAnswer)
  | claimDataSet (connection : Uri) (s : DataSet)
  | completeDataSet (connection : Uri) (s : DataSet)
  | failDataSet (connection : Uri) (s : DataSet)
  | invalidatePetriNet (connection : Uri)
  /-- Sets the number of failures after which a data set is not fetched again. -/
  | limitFailures (maxFailures : Nat)

/-- What an operation answers. -/
inductive Answer where
  | nothing
  | told (b : Bool)
  | claim (c : Claim)
  | failure (f : Failure)
  | failures (count : Option Nat)
  | removed (records : List (ResourceKind × Uri))

namespace Tracker

/-- The answer of an operation, and the records after it. -/
def perform (t : Tracker) : Operation → Answer × Tracker
  | .flag kind u => (t.flag kind u).map .told id
  | .claim kind u => (t.claim kind u).map .claim id
  | .complete kind u status => (t.complete kind u status).map .told id
  | .fail kind u status => (t.fail kind u status).map .failure id
  | .forgetAtom atom => (t.forgetAtom atom).map .removed id
  | .forgetConnection u => (t.forgetConnection u).map .removed id
  | .forgetAll => (.nothing, t.forgetAll)
  | .beginEdit atom => (.nothing, t.beginEdit atom)
  | .endEdit atom => (.nothing, t.endEdit atom)
  | .flagParticipants m => (.nothing, t.flagParticipants m)
  | .completeContainer atom connections => (t.completeContainer atom connections).map .told id
  | .assignOwner u atom => (.nothing, t.assignOwner u atom)
  | .claimPage u => (t.claimPage u).map .claim id
  | .completePage u messages nextPage => (t.completePage u messages nextPage).map .told id
  | .failPage u messages nextPage status => (t.failPage u messages nextPage status).map .told id
  | .claimDataSet u s => (t.claimDataSet u s).map .claim id
  | .completeDataSet u s => (t.completeDataSet u s).map .told id
  | .failDataSet u s => (t.failDataSet u s).map .failures id
  | .invalidatePetriNet u => (.nothing, t.invalidatePetriNet u)
  | .limitFailures n => (.nothing, { t with maxFailures := n })

end Tracker

/-- What an operation has to do with fetches. -/
inductive Role where
  | claims (f : Fetch)
  | reports (f : Fetch)
  | deletes
  | other

/-- The role of an operation. A failure that says that the resource was deleted on the node deletes
its records, but for external documents. -/
def Operation.role : Operation → Role
  | .claim kind u => .claims (.resource kind u)
  | .claimPage u => .claims (.page u)
  | .claimDataSet u s => .claims (.dataSet u s)
  | .complete kind u _ => .reports (.resource kind u)
  | .completeContainer atom _ => .reports (.resource .container atom)
  | .completePage u _ _ | .failPage u _ _ _ => .reports (.page u)
  | .completeDataSet u s | .failDataSet u s => .reports (.dataSet u s)
  | .fail kind u status =>
    if status.saysGone && kind ≠ .external then .deletes else .reports (.resource kind u)
  | .forgetAtom _ | .forgetConnection _ | .forgetAll => .deletes
  | _ => .other

/-- Whether a report was accepted. -/
def Answer.isAccepted : Answer → Bool
  | .told b => b
  | .failure .failed => true
  | .failures count => count.isSome
  | _ => false

namespace Tracker

/-! ## Claims and reports -/

section

variable (t : Tracker)

/-- An operation that only changes what the record of a connection says about one fetch. -/
theorem inFlight_setConnection_of {u : Uri} {c : ConnectionRecord} {g : Fetch}
    (hrecord : g.record = (.connection, u))
    (hrest : ∀ f, f ≠ g → f.record = (.connection, u) →
      c.isFetching f = (t.connections.getD u .fresh).isFetching f) (f : Fetch) :
    (t.setConnection u c).inFlight f = true ↔
      f = g ∧ c.isFetching g = true ∨ f ≠ g ∧ t.inFlight f = true := by
  rw [inFlight_setConnection]
  by_cases hf : f = g
  · subst hf
    simp [hrecord]
  · split
    · rename_i h
      rw [hrest f hf h, ← inFlight_eq_isFetching h]
      simp [hf]
    · simp [hf]

/-- Of what is kept in the record of a connection, all but the page is fetched as before. -/
theorem isFetching_of_page {c c' : ConnectionRecord} {u : Uri}
    (hload : c'.load.phase = c.load.phase) (hdata : ∀ s, c'.dataSet s = c.dataSet s) (f : Fetch)
    (hf : f ≠ .page u) (h : f.record = (.connection, u)) : c'.isFetching f = c.isFetching f := by
  rcases f with ⟨kind, v⟩ | v | ⟨v, s⟩
  · simp [ConnectionRecord.isFetching, hload]
  · cases h
    exact absurd rfl hf
  · simp [ConnectionRecord.isFetching, hdata]

/-- A claim is granted if the fetch is not in flight, and puts it in flight. -/
def Claims (f₀ : Fetch) (r : Answer × Tracker) : Prop :=
  r.1 = .claim (if t.inFlight f₀ then .alreadyLoading else .started) ∧
    ∀ f, r.2.inFlight f = true ↔ f = f₀ ∨ t.inFlight f = true

/-- A report is accepted if the fetch is in flight, and lands it. -/
def Reports (f₀ : Fetch) (r : Answer × Tracker) : Prop :=
  r.1.isAccepted = t.inFlight f₀ ∧
    ∀ f, r.2.inFlight f = true ↔ f ≠ f₀ ∧ t.inFlight f = true

variable {t} {f₀ : Fetch}

theorem claims_of_busy (h : t.inFlight f₀ = true) :
    t.Claims f₀ (.claim .alreadyLoading, t) := by
  refine ⟨by simp [h], fun f => ⟨Or.inr, ?_⟩⟩
  rintro (rfl | hf)
  · exact h
  · exact hf

theorem claims_of_idle {t' : Tracker} (h : t.inFlight f₀ = false)
    (h' : ∀ f, t'.inFlight f = true ↔ f = f₀ ∨ f ≠ f₀ ∧ t.inFlight f = true) :
    t.Claims f₀ (.claim .started, t') := by
  refine ⟨by simp [h], fun f => (h' f).trans ?_⟩
  by_cases hf : f = f₀ <;> simp [hf]

theorem reports_of_busy {answer : Answer} {t' : Tracker} (h : t.inFlight f₀ = true)
    (hanswer : answer.isAccepted = true)
    (h' : ∀ f, t'.inFlight f = true ↔ f ≠ f₀ ∧ t.inFlight f = true) :
    t.Reports f₀ (answer, t') :=
  ⟨hanswer.trans h.symm, h'⟩

theorem reports_of_idle {answer : Answer} (h : t.inFlight f₀ = false)
    (hanswer : answer.isAccepted = false) : t.Reports f₀ (answer, t) := by
  refine ⟨hanswer.trans h.symm, fun f => ⟨fun hf => ⟨?_, hf⟩, And.right⟩⟩
  rintro rfl
  rw [h] at hf
  cases hf

variable (t)

theorem claims_claim (kind : ResourceKind) (u : Uri) :
    t.Claims (.resource kind u) ((t.claim kind u).map .claim id) := by
  unfold claim
  split
  · rename_i h
    exact claims_of_busy h
  · rename_i h
    refine claims_of_idle (Bool.eq_false_iff.2 h) fun f => ?_
    simp [inFlight_setLoad]

theorem claims_claimPage (u : Uri) : t.Claims (.page u) ((t.claimPage u).map .claim id) := by
  have hpage : t.inFlight (.page u) = (t.connections.getD u .fresh).loadingMessages :=
    inFlight_eq_isFetching rfl
  unfold claimPage
  dsimp only
  split
  · rename_i h
    exact claims_of_busy (hpage.trans h)
  · rename_i h
    refine claims_of_idle (hpage.trans (Bool.eq_false_iff.2 h)) fun f => ?_
    refine (t.inFlight_setConnection_of (g := .page u) rfl ?_ f).trans ?_
    · exact isFetching_of_page rfl fun s => by cases s <;> rfl
    · simp [ConnectionRecord.isFetching]

theorem claims_claimDataSet (u : Uri) (s : DataSet) :
    t.Claims (.dataSet u s) ((t.claimDataSet u s).map .claim id) := by
  have hdata : t.inFlight (.dataSet u s) = ((t.connections.getD u .fresh).dataSet s).loading :=
    inFlight_eq_isFetching rfl
  unfold claimDataSet
  dsimp only
  split
  · rename_i h
    exact claims_of_busy (hdata.trans h)
  · rename_i h
    refine claims_of_idle (hdata.trans (Bool.eq_false_iff.2 h)) fun f => ?_
    refine (t.inFlight_setConnection_of rfl (isFetching_setDataSet _ _) f).trans ?_
    simp [ConnectionRecord.isFetching]

theorem reports_complete (kind : ResourceKind) (u : Uri) (status : Option FetchAnswer) :
    t.Reports (.resource kind u) ((t.complete kind u status).map .told id) := by
  unfold complete
  split
  · rename_i h
    refine reports_of_busy h rfl fun f => ?_
    simp [inFlight_setLoad]
  · rename_i h
    exact reports_of_idle (Bool.eq_false_iff.2 h) rfl

theorem reports_fail (kind : ResourceKind) (u : Uri) {status : FetchAnswer}
    (hs : ¬ (status.saysGone && kind ≠ .external) = true) :
    t.Reports (.resource kind u) ((t.fail kind u status).map .failure id) := by
  rw [fail, if_neg hs]
  split
  · rename_i h
    refine reports_of_busy h rfl fun f => ?_
    simp [inFlight_setLoad]
  · rename_i h
    exact reports_of_idle (Bool.eq_false_iff.2 h) rfl

theorem reports_completeContainer (atom : Uri) (connections : List (Uri × Option Uri)) :
    t.Reports (.resource .container atom)
      ((t.completeContainer atom connections).map .told id) := by
  have hcomplete := t.reports_complete .container atom none
  unfold completeContainer
  cases h : t.complete .container atom none with
  | mk accepted t' =>
    rw [h] at hcomplete
    cases accepted with
    | false => exact hcomplete
    | true =>
      refine ⟨hcomplete.1, fun f => ?_⟩
      -- taking in what the container lists keeps what is in flight
      have hlisted := allowsFlags_sameFlights.addListed atom
        (fun listed (_ : listed ∈ connections) t => t.sameFlights_bindConnection listed.1 atom) t' f
      exact (Bool.eq_iff_iff.1 hlisted).trans (hcomplete.2 f)

/-- A report on a page or a data set, of which the record of the connection says whether it is
fetched. -/
theorem reports_of_record {u : Uri} {f₀ : Fetch} (hrecord : f₀.record = (.connection, u))
    {r : Answer × Tracker}
    (hidle : t.inFlight f₀ = false → r.2 = t ∧ r.1.isAccepted = false)
    (hbusy : ∀ c, t.connections.get? u = some c → c.isFetching f₀ = true →
      r.1.isAccepted = true ∧ ∃ c', r.2 = t.setConnection u c' ∧ c'.isFetching f₀ = false ∧
        ∀ f, f ≠ f₀ → f.record = (.connection, u) → c'.isFetching f = c.isFetching f) :
    t.Reports f₀ r := by
  obtain ⟨answer, t'⟩ := r
  cases h : t.inFlight f₀ with
  | false =>
    obtain ⟨rfl, hanswer⟩ := hidle h
    exact reports_of_idle h hanswer
  | true =>
    have hany := h
    rw [inFlight_eq_any hrecord] at hany
    obtain ⟨c, hc, hfetching⟩ := (Option.any_eq_true _ _).1 hany
    obtain ⟨hanswer, c', rfl, hlanded, hrest⟩ := hbusy c hc hfetching
    have hc' : t.connections.getD u .fresh = c := by rw [UriMap.getD, hc, Option.getD_some]
    refine reports_of_busy h hanswer fun f => ?_
    rw [← hc'] at hrest
    rw [t.inFlight_setConnection_of hrecord hrest, hlanded]
    simp

theorem reports_completePage (u : Uri) (messages : List Uri) (nextPage : Option String) :
    t.Reports (.page u) ((t.completePage u messages nextPage).map .told id) := by
  refine t.reports_of_record rfl (fun h => ?_) fun c hc (h : c.loadingMessages = true) => ?_
  · rw [completePage_of_idle h]
    exact ⟨rfl, rfl⟩
  · simp only [completePage, hc, h, if_true]
    exact ⟨rfl, _, rfl, rfl, isFetching_of_page rfl fun s => by cases s <;> rfl⟩

theorem reports_failPage (u : Uri) (messages : List Uri) (nextPage : Option String)
    (status : FetchAnswer) :
    t.Reports (.page u) ((t.failPage u messages nextPage status).map .told id) := by
  refine t.reports_of_record rfl (fun h => ?_) fun c hc (h : c.loadingMessages = true) => ?_
  · rw [failPage_of_idle h]
    exact ⟨rfl, rfl⟩
  · simp only [failPage, hc, h, if_true]
    exact ⟨rfl, _, rfl, rfl, isFetching_of_page rfl fun s => by cases s <;> rfl⟩

theorem reports_completeDataSet (u : Uri) (s : DataSet) :
    t.Reports (.dataSet u s) ((t.completeDataSet u s).map .told id) := by
  refine t.reports_of_record rfl (fun h => ?_) fun c hc (h : (c.dataSet s).loading = true) => ?_
  · rw [completeDataSet_of_idle h]
    exact ⟨rfl, rfl⟩
  · simp only [completeDataSet, hc, h, if_true]
    exact ⟨rfl, _, rfl, by simp [ConnectionRecord.isFetching], isFetching_setDataSet c _⟩

theorem reports_failDataSet (u : Uri) (s : DataSet) :
    t.Reports (.dataSet u s) ((t.failDataSet u s).map .failures id) := by
  refine t.reports_of_record rfl (fun h => ?_) fun c hc (h : (c.dataSet s).loading = true) => ?_
  · rw [failDataSet_of_idle h]
    exact ⟨rfl, rfl⟩
  · simp only [failDataSet, hc, h, if_true]
    exact ⟨rfl, _, rfl, by simp [ConnectionRecord.isFetching], isFetching_setDataSet c _⟩

end

/-! ## Deletions -/

/-- What is left of the records is as it was. -/
structure Sheds (t t' : Tracker) : Prop where
  loads : ∀ kind u, t'.load? kind u = none ∨ t'.load? kind u = t.load? kind u
  connections : ∀ u, t'.connections.get? u = none ∨ t'.connections.get? u = t.connections.get? u

theorem knows_of_inFlight {t : Tracker} {f : Fetch} (h : t.inFlight f = true) :
    t.knows f.record.1 f.record.2 = true := by
  rcases f with ⟨kind, u⟩ | u | ⟨u, s⟩
  · obtain ⟨l, hl, -⟩ := Option.map_eq_some_iff.1 (of_decide_eq_true h)
    simp [knows, Fetch.record, hl]
  · obtain ⟨c, hc, -⟩ := (Option.any_eq_true _ _).1 h
    simp [knows, Fetch.record, load?, hc]
  · obtain ⟨c, hc, -⟩ := (Option.any_eq_true _ _).1 h
    simp [knows, Fetch.record, load?, hc]

/-- A deletion ends the fetches whose record is gone, and no others. -/
theorem Sheds.inFlight_iff {t t' : Tracker} (h : t.Sheds t') (f : Fetch) :
    t'.inFlight f = true ↔ t.inFlight f = true ∧ t'.knows f.record.1 f.record.2 = true := by
  have hkept (hk : t'.knows f.record.1 f.record.2 = true) : t'.inFlight f = t.inFlight f := by
    have hconnection (u : Uri) (hu : f.record = (.connection, u)) :
        t'.connections.get? u = t.connections.get? u := by
      refine (h.connections u).resolve_left fun hnone => ?_
      rw [hu] at hk
      simp [knows, load?, hnone] at hk
    rcases f with ⟨kind, u⟩ | u | ⟨u, s⟩
    · have hload := (h.loads kind u).resolve_left fun hnone => by
        simp [knows, Fetch.record, hnone] at hk
      show decide ((t'.load? kind u).map (·.phase) = some .loading) = _
      rw [hload]
      rfl
    · simp only [inFlight, hconnection u rfl]
    · simp only [inFlight, hconnection u rfl]
  constructor
  · intro hf
    have hk := knows_of_inFlight hf
    exact ⟨hkept hk ▸ hf, hk⟩
  · rintro ⟨hf, hk⟩
    exact (hkept hk).trans hf

section

variable (t : Tracker)

/-- What is left by a deletion is as it was. -/
theorem Removes.sheds {gone : ResourceKind → Uri → Bool}
    {r : List (ResourceKind × Uri) × Tracker} (h : t.Removes gone r) : t.Sheds r.2 where
  loads kind u := by
    rw [h.load?]
    split <;> simp
  connections u := by
    rw [h.connections]
    split <;> simp

theorem sheds_forgetAtom (atom : Uri) : t.Sheds (t.forgetAtom atom).2 :=
  (t.removes_forgetAtom atom).sheds

theorem sheds_forgetConnection (u : Uri) : t.Sheds (t.forgetConnection u).2 :=
  (t.removes_forgetConnection u).sheds

theorem sheds_forgetAll : t.Sheds t.forgetAll :=
  ⟨fun kind _ => by cases kind <;> exact Or.inl rfl, fun _ => Or.inl rfl⟩

theorem sheds_fail (kind : ResourceKind) (u : Uri) {status : FetchAnswer}
    (hs : (status.saysGone && kind ≠ .external) = true) :
    t.Sheds (t.fail kind u status).2 := by
  rw [fail, if_pos hs]
  by_cases hk : kind = .connection
  · rw [if_pos hk]
    exact t.sheds_forgetConnection u
  · rw [if_neg hk]
    exact t.sheds_forgetAtom u

/-! ## The rest -/

theorem sameFlights_beginEdit (atom : Uri) : t.SameFlights (t.beginEdit atom) := by
  have hget (v : Uri) : (t.beginEdit atom).atoms.get? v = if v = atom then
      some { t.atoms.getD atom .fresh with updating := true } else t.atoms.get? v :=
    UriMap.get?_upsert ..
  rintro (⟨kind, v⟩ | v | ⟨v, s⟩)
  · cases kind with
    | atom =>
      have hrecord : (t.beginEdit atom).inFlight (.resource .atom v) =
          decide ((((t.beginEdit atom).atoms.get? v).map (·.load)).map (·.phase) =
            some .loading) := rfl
      rw [hrecord, hget]
      split
      · rename_i e
        subst e
        show decide (some (t.atoms.getD v .fresh).load.phase = some .loading) =
          decide (((t.atoms.get? v).map (·.load)).map (·.phase) = some .loading)
        rw [UriMap.getD]
        -- an atom that gets its record with the edit is not being fetched
        cases t.atoms.get? v <;> rfl
      · rfl
    | container | connection | external => rfl
  · rfl
  · rfl

theorem sameFlights_endEdit (atom : Uri) : t.SameFlights (t.endEdit atom) := by
  unfold endEdit
  split
  · rintro (⟨kind, v⟩ | v | ⟨v, s⟩)
    · cases kind with
      | atom =>
        show decide ((((t.atoms.modify atom _).get? v).map (·.load)).map (·.phase) =
          some .loading) = decide (((t.atoms.get? v).map (·.load)).map (·.phase) = some .loading)
        rw [UriMap.get?_modify]
        split
        · cases t.atoms.get? v <;> rfl
        · rfl
      | container | connection | external => rfl
    · rfl
    · rfl
  · exact .refl t

end

/-! ## Every operation plays its role -/

theorem claims_perform {op : Operation} {f₀ : Fetch} (h : op.role = .claims f₀) (t : Tracker) :
    t.Claims f₀ (t.perform op) := by
  -- an operation of another role is no claim; the role of a failure depends on what it says
  cases op <;> try cases h
  case claim kind u => exact t.claims_claim kind u
  case claimPage u => exact t.claims_claimPage u
  case claimDataSet u s => exact t.claims_claimDataSet u s
  case fail kind u status =>
    simp only [Operation.role] at h
    split at h <;> cases h

theorem reports_perform {op : Operation} {f₀ : Fetch} (h : op.role = .reports f₀) (t : Tracker) :
    t.Reports f₀ (t.perform op) := by
  cases op <;> try cases h
  case complete kind u status => exact t.reports_complete kind u status
  case completeContainer atom connections => exact t.reports_completeContainer atom connections
  case completePage u messages nextPage => exact t.reports_completePage u messages nextPage
  case failPage u messages nextPage status => exact t.reports_failPage u messages nextPage status
  case completeDataSet u s => exact t.reports_completeDataSet u s
  case failDataSet u s => exact t.reports_failDataSet u s
  case fail kind u status =>
    simp only [Operation.role] at h
    split at h
    · cases h
    · rename_i hs
      cases h
      exact t.reports_fail kind u hs

theorem sheds_perform {op : Operation} (h : op.role = .deletes) (t : Tracker) :
    t.Sheds (t.perform op).2 := by
  cases op <;> try cases h
  case forgetAtom atom => exact t.sheds_forgetAtom atom
  case forgetConnection u => exact t.sheds_forgetConnection u
  case forgetAll => exact t.sheds_forgetAll
  case fail kind u status =>
    simp only [Operation.role] at h
    split at h
    · rename_i hs
      exact t.sheds_fail kind u hs
    · cases h

theorem sameFlights_perform {op : Operation} (h : op.role = .other) (t : Tracker) :
    t.SameFlights (t.perform op).2 := by
  cases op <;> try cases h
  case flag kind u => exact t.sameFlights_flag kind u
  case beginEdit atom => exact t.sameFlights_beginEdit atom
  case endEdit atom => exact t.sameFlights_endEdit atom
  case flagParticipants m => exact allowsFlags_sameFlights.participants t m
  case assignOwner u atom => exact t.sameFlights_assignOwner u atom
  case invalidatePetriNet u => exact t.sameFlights_invalidatePetriNet u
  case limitFailures n =>
    rintro (⟨kind, v⟩ | v | ⟨v, s⟩)
    · cases kind <;> rfl
    · rfl
    · rfl
  case fail kind u status =>
    simp only [Operation.role] at h
    split at h <;> cases h

end Tracker

end Parley.Loading
