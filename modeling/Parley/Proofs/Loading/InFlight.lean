/-
What is being fetched, according to the load records. A fetch is in flight from its claim to its
completion, and reporting one that is not changes no record. Messages that are taken in may flag
atoms for loading and bind connections to their atoms, but that puts no fetch in flight and lands
none.
-/
import Parley.Proofs.Loading.Changes

namespace Parley.Loading

/-- Something that is fetched as a whole. -/
inductive Fetch where
  | resource (kind : ResourceKind) (uri : Uri)
  /-- A page of the messages of a connection. -/
  | page (connection : Uri)
  | dataSet (connection : Uri) (s : DataSet)

/-- The record that a fetch is kept in: its own, or that of its connection. -/
def Fetch.record : Fetch → ResourceKind × Uri
  | .resource kind u => (kind, u)
  | .page u | .dataSet u _ => (.connection, u)

/-- What the record of a connection says about a fetch that is kept in it. -/
def ConnectionRecord.isFetching (c : ConnectionRecord) : Fetch → Bool
  | .resource _ _ => c.load.phase = .loading
  | .page _ => c.loadingMessages
  | .dataSet _ s => (c.dataSet s).loading

theorem isFetching_fresh (f : Fetch) : ConnectionRecord.fresh.isFetching f = false := by
  rcases f with _ | _ | ⟨_, s⟩
  · rfl
  · rfl
  · cases s <;> rfl

theorem isFetching_setDataSet (c : ConnectionRecord) (r : DataSetRecord) {u : Uri} {s : DataSet}
    (f : Fetch) (hf : f ≠ .dataSet u s) (h : f.record = (.connection, u)) :
    (c.setDataSet r s).isFetching f = c.isFetching f := by
  rcases f with ⟨kind, v⟩ | v | ⟨v, s'⟩
  · cases s <;> rfl
  · cases s <;> rfl
  · cases h
    have hs : s' ≠ s := fun e => hf (e ▸ rfl)
    simp [ConnectionRecord.isFetching, hs]

namespace Tracker

/-- Whether something is being fetched. -/
def inFlight (t : Tracker) : Fetch → Bool
  | .resource kind u => t.isIn .loading kind u
  | .page u => (t.connections.get? u).any (·.loadingMessages)
  | .dataSet u s => (t.connections.get? u).any fun c => (c.dataSet s).loading

theorem inFlight_eq_any {t : Tracker} {f : Fetch} {u : Uri} (h : f.record = (.connection, u)) :
    t.inFlight f = (t.connections.get? u).any (·.isFetching f) := by
  rcases f with ⟨kind, v⟩ | v | ⟨v, s⟩ <;> cases h
  · show decide (((t.connections.get? u).map (·.load)).map (·.phase) = some .loading) = _
    cases t.connections.get? u <;> simp [ConnectionRecord.isFetching]
  · rfl
  · rfl

/-- An unknown connection counts as a fresh record, of which nothing is being fetched. -/
theorem inFlight_eq_isFetching {t : Tracker} {f : Fetch} {u : Uri}
    (h : f.record = (.connection, u)) :
    t.inFlight f = (t.connections.getD u .fresh).isFetching f := by
  rw [inFlight_eq_any h, UriMap.getD]
  cases t.connections.get? u with
  | none => exact (isFetching_fresh f).symm
  | some c => rfl

theorem isFetching_of_idle {t : Tracker} {f : Fetch} {u : Uri} {c : ConnectionRecord}
    (hidle : t.inFlight f = false) (hrecord : f.record = (.connection, u))
    (hc : t.connections.get? u = some c) : c.isFetching f = false := by
  rw [inFlight_eq_any hrecord, hc] at hidle
  exact hidle

/-- Setting the record of a connection decides about its fetches, and about no others. -/
theorem inFlight_setConnection (t : Tracker) (u : Uri) (c : ConnectionRecord) (f : Fetch) :
    (t.setConnection u c).inFlight f =
      if f.record = (.connection, u) then c.isFetching f else t.inFlight f := by
  have hget (v : Uri) : (t.setConnection u c).connections.get? v =
      if v = u then some c else t.connections.get? v := UriMap.get?_insert ..
  split
  · rename_i h
    rw [inFlight_eq_isFetching h, UriMap.getD, hget, if_pos rfl]
    rfl
  · rename_i h
    cases hrecord : f.record with
    | mk kind v =>
      cases kind with
      | connection =>
        have hv : v ≠ u := fun e => h (by rw [hrecord, e])
        rw [inFlight_eq_any hrecord, inFlight_eq_any hrecord, hget, if_neg hv]
      | atom | container | external =>
        rcases f with _ | _ | _ <;> cases hrecord
        rfl

/-- Setting the load record of a resource decides about its fetch, and about no others. -/
theorem inFlight_setLoad (t : Tracker) (kind : ResourceKind) (u : Uri) (l : LoadRecord)
    (f : Fetch) :
    (t.setLoad kind u l).bump.inFlight f = true ↔
      f = .resource kind u ∧ l.phase = .loading ∨ f ≠ .resource kind u ∧ t.inFlight f = true := by
  have hfetching (c : ConnectionRecord) {f : Fetch} (hf : f ≠ .resource .connection u)
      (h : f.record = (.connection, u)) : { c with load := l }.isFetching f = c.isFetching f := by
    rcases f with ⟨kind, v⟩ | v | ⟨v, s⟩
    · cases h
      exact absurd rfl hf
    · rfl
    · cases s <;> rfl
  have hconnection (h : kind = .connection) : (t.setLoad kind u l).bump =
      t.setConnection u { t.connections.getD u .fresh with load := l } := by
    subst h
    rfl
  by_cases hf : f = .resource kind u
  · subst hf
    have hload : (t.setLoad kind u l).bump.load? kind u = some l := by simp [load?_setLoad]
    simp [inFlight, isIn, phase?, hload]
  · have hother : (t.setLoad kind u l).bump.inFlight f = t.inFlight f := by
      rcases f with ⟨kind', v⟩ | v | ⟨v, s⟩
      · have hv : ¬ (kind' = kind ∧ v = u) := by
          rintro ⟨rfl, rfl⟩
          exact hf rfl
        show decide (((t.setLoad kind u l).bump.load? kind' v).map (·.phase) = some .loading) = _
        rw [load?_bump, load?_setLoad, if_neg hv]
        rfl
      all_goals
        by_cases h : kind = .connection
        · rw [hconnection h, inFlight_setConnection]
          split
          · rename_i hrecord
            rw [hfetching _ (h ▸ hf) hrecord, inFlight_eq_isFetching hrecord]
          · rfl
        · cases kind <;> first | rfl | exact absurd rfl h
    rw [hother]
    simp [hf]

/-! ## Reports of fetches that are not in flight -/

theorem complete_of_idle {t : Tracker} {kind : ResourceKind} {u : Uri}
    (h : t.inFlight (.resource kind u) = false) (status : Option FetchAnswer) :
    t.complete kind u status = (false, t) := by
  have h' : t.isIn .loading kind u = false := h
  simp [complete, h']

/-- A completion that is refused changes nothing. -/
theorem complete_of_refused {t t' : Tracker} {kind : ResourceKind} {u : Uri}
    {status : Option FetchAnswer} (h : t.complete kind u status = (false, t')) : t' = t := by
  unfold complete at h
  split at h
  · cases h
  · cases h
    rfl

theorem completeContainer_of_idle {t : Tracker} {atom : Uri}
    (h : t.inFlight (.resource .container atom) = false)
    (connections : List (Uri × Option Uri)) :
    t.completeContainer atom connections = (false, t) := by
  rw [completeContainer, complete_of_idle h]

theorem fail_of_idle {t : Tracker} {kind : ResourceKind} {u : Uri}
    (h : t.inFlight (.resource kind u) = false) {status : FetchAnswer}
    (hs : status.saysGone = false) : t.fail kind u status = (.stale, t) := by
  have h' : t.isIn .loading kind u = false := h
  simp [fail, hs, h']

theorem completePage_of_idle {t : Tracker} {u : Uri} (h : t.inFlight (.page u) = false)
    (messages : List Uri) (nextPage : Option String) :
    t.completePage u messages nextPage = (false, t) := by
  unfold completePage
  cases hc : t.connections.get? u with
  | none => rfl
  | some c =>
    have h' : c.loadingMessages = false := isFetching_of_idle h rfl hc
    simp [h']

theorem failPage_of_idle {t : Tracker} {u : Uri} (h : t.inFlight (.page u) = false)
    (messages : List Uri) (nextPage : Option String) (status : FetchAnswer) :
    t.failPage u messages nextPage status = (false, t) := by
  unfold failPage
  cases hc : t.connections.get? u with
  | none => rfl
  | some c =>
    have h' : c.loadingMessages = false := isFetching_of_idle h rfl hc
    simp [h']

theorem completeDataSet_of_idle {t : Tracker} {u : Uri} {s : DataSet}
    (h : t.inFlight (.dataSet u s) = false) : t.completeDataSet u s = (false, t) := by
  unfold completeDataSet
  cases hc : t.connections.get? u with
  | none => rfl
  | some c =>
    have h' : (c.dataSet s).loading = false := isFetching_of_idle h rfl hc
    simp [h']

theorem failDataSet_of_idle {t : Tracker} {u : Uri} {s : DataSet}
    (h : t.inFlight (.dataSet u s) = false) : t.failDataSet u s = (none, t) := by
  unfold failDataSet
  cases hc : t.connections.get? u with
  | none => rfl
  | some c =>
    have h' : (c.dataSet s).loading = false := isFetching_of_idle h rfl hc
    simp [h']

/-! ## Changes that put nothing in flight and land nothing -/

/-- The same fetches are in flight. -/
def SameFlights (t t' : Tracker) : Prop :=
  ∀ f, t'.inFlight f = t.inFlight f

theorem SameFlights.refl (t : Tracker) : t.SameFlights t :=
  fun _ => rfl

theorem SameFlights.trans {t t' t'' : Tracker} (h : t.SameFlights t') (h' : t'.SameFlights t'') :
    t.SameFlights t'' :=
  fun f => (h' f).trans (h f)

/-- What is flagged was unknown, and is still not being fetched. -/
theorem sameFlights_flag (t : Tracker) (kind : ResourceKind) (u : Uri) :
    t.SameFlights (t.flag kind u).2 := by
  unfold flag
  split
  · exact .refl t
  · rename_i h
    obtain ⟨-, hunknown⟩ : u.isBlank = false ∧ t.knows kind u = false := by simpa using h
    have hload : t.load? kind u = none := by simpa [knows] using hunknown
    intro f
    rw [Bool.eq_iff_iff, inFlight_setLoad]
    by_cases hf : f = .resource kind u
    · subst hf
      simp [inFlight, isIn, phase?, hload]
    · simp [hf]

theorem allowsFlags_sameFlights : AllowsFlags SameFlights :=
  ⟨.refl, .trans, sameFlights_flag⟩

/-- A connection record that is not fetched otherwise than before makes no difference. -/
theorem sameFlights_setConnection {t : Tracker} {u : Uri} {c : ConnectionRecord}
    (hload : c.load = (t.connections.getD u .fresh).load)
    (hpage : c.loadingMessages = (t.connections.getD u .fresh).loadingMessages)
    (hdata : ∀ s, (c.dataSet s).loading = ((t.connections.getD u .fresh).dataSet s).loading) :
    t.SameFlights (t.setConnection u c) := by
  intro f
  rw [inFlight_setConnection]
  split
  · rename_i h
    rw [inFlight_eq_isFetching h]
    rcases f with _ | _ | ⟨_, s⟩
    · simp [ConnectionRecord.isFetching, hload]
    · exact hpage
    · exact hdata s
  · rfl

theorem sameFlights_assignOwner (t : Tracker) (connection atom : Uri) :
    t.SameFlights (t.assignOwner connection atom) :=
  sameFlights_setConnection rfl rfl fun s => by cases s <;> rfl

theorem sameFlights_bindConnection (t : Tracker) (connection atom : Uri) :
    t.SameFlights (t.bindConnection connection atom) := by
  have hget (v : Uri) : (t.bindConnection connection atom).connections.get? v =
      if v = connection then (t.connections.get? v).map fun c => { c with atom := some atom }
      else t.connections.get? v := UriMap.get?_modify ..
  have hany (p : ConnectionRecord → Bool) (hp : ∀ c : ConnectionRecord,
      p { c with atom := some atom } = p c) (v : Uri) :
      ((t.bindConnection connection atom).connections.get? v).any p =
        (t.connections.get? v).any p := by
    rw [hget]
    split
    · cases t.connections.get? v <;> simp [hp]
    · rfl
  rintro (⟨kind, v⟩ | v | ⟨v, s⟩)
  · cases kind with
    | connection =>
      rw [inFlight_eq_any rfl, inFlight_eq_any rfl]
      exact hany _ (fun _ => rfl) v
    | atom | container | external => rfl
  · exact hany _ (fun _ => rfl) v
  · exact hany _ (fun c => by cases s <;> rfl) v

theorem sameFlights_invalidatePetriNet (t : Tracker) (connection : Uri) :
    t.SameFlights (t.invalidatePetriNet connection) := by
  unfold invalidatePetriNet
  cases h : t.connections.get? connection with
  | none => exact .refl t
  | some c =>
    have hold : t.connections.getD connection .fresh = c := by simp [UriMap.getD, h]
    exact sameFlights_setConnection (by rw [hold]) (by rw [hold])
      fun s => by rw [hold]; cases s <;> rfl

end Tracker

end Parley.Loading
