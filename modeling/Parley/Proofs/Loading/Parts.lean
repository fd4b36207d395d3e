/-
Parts of what is known of connections. The record of a connection has many parts, and whatever is
done to the load records has to do with few of them: it changes other parts, or the record of another
resource. Main statements: what fetches, pages, data sets and bindings leave alone, for every part
that has nothing to do with the fetch of the connection itself or with its message pages.
-/
import Parley.Proofs.Loading.Changes

namespace Parley.Loading

variable {α : Type}

/-- A part of the record of a connection that has nothing to do with the fetch of the connection, or
with its message pages. -/
structure ConnectionRecord.IsAside (part : ConnectionRecord → α) : Prop where
  load : ∀ c load, part { c with load := load } = part c
  pages : ∀ c loading next failed, part
    { c with loadingMessages := loading, nextPage := next, failedMessages := failed } = part c

namespace Tracker

/-- The failures allowed, and a part of what is known of every connection, are the same. An unknown
connection counts as a fresh record. -/
structure SamePart (part : ConnectionRecord → α) (t t' : Tracker) : Prop where
  limit : t'.maxFailures = t.maxFailures
  same : ∀ u, part (t'.connections.getD u .fresh) = part (t.connections.getD u .fresh)

theorem getD_of_get? (t : Tracker) (u : Uri) {c : ConnectionRecord}
    (h : t.connections.get? u = some c) : t.connections.getD u .fresh = c := by
  rw [UriMap.getD, h]
  rfl

theorem getD_setConnection (t : Tracker) (u v : Uri) (c : ConnectionRecord) :
    (t.setConnection u c).connections.getD v .fresh =
      if v = u then c else t.connections.getD v .fresh := by
  unfold UriMap.getD
  show ((t.connections.insert u c).get? v).getD _ = _
  rw [UriMap.get?_insert]
  split <;> rfl

section

variable {part : ConnectionRecord → α} {t t' t'' : Tracker}

theorem SamePart.refl (t : Tracker) : t.SamePart part t :=
  ⟨rfl, fun _ => rfl⟩

theorem SamePart.trans (h : t.SamePart part t') (h' : t'.SamePart part t'') :
    t.SamePart part t'' :=
  ⟨h'.limit.trans h.limit, fun u => (h'.same u).trans (h.same u)⟩

/-! ## Setting the record of a connection -/

theorem samePart_setConnection {u : Uri} {c : ConnectionRecord}
    (h : part c = part (t.connections.getD u .fresh)) : t.SamePart part (t.setConnection u c) := by
  refine ⟨rfl, fun v => ?_⟩
  rw [getD_setConnection]
  split
  · rename_i e
    rw [h, e]
  · rfl

/-- A known connection whose record keeps the part. -/
theorem samePart_setConnection_of_get? {u : Uri} {c c' : ConnectionRecord}
    (hc : t.connections.get? u = some c) (h : part c' = part c) :
    t.SamePart part (t.setConnection u c') :=
  samePart_setConnection (h.trans (by rw [getD_of_get? t u hc]))

/-! ## Fetches of resources -/

section

variable (hpart : ConnectionRecord.IsAside part) (t : Tracker)
include hpart

theorem samePart_setLoad (kind : ResourceKind) (u : Uri) (l : LoadRecord) :
    t.SamePart part (t.setLoad kind u l).bump := by
  cases kind with
  | connection => exact samePart_setConnection (hpart.load _ l)
  | atom | container | external => exact ⟨rfl, fun _ => rfl⟩

theorem samePart_flag (kind : ResourceKind) (u : Uri) : t.SamePart part (t.flag kind u).2 := by
  unfold flag
  split
  · exact .refl t
  · exact samePart_setLoad hpart t kind u _

theorem samePart_claim (kind : ResourceKind) (u : Uri) : t.SamePart part (t.claim kind u).2 := by
  unfold claim
  split
  · exact .refl t
  · exact samePart_setLoad hpart t kind u _

theorem samePart_complete (kind : ResourceKind) (u : Uri) (status : Option FetchAnswer) :
    t.SamePart part (t.complete kind u status).2 := by
  unfold complete
  split
  · exact samePart_setLoad hpart t kind u _
  · exact .refl t

theorem allowsFlags_samePart : AllowsFlags (SamePart part) :=
  ⟨.refl, .trans, samePart_flag hpart⟩

/-- A failure that says that the resource was deleted takes records away, and is no case of this. -/
theorem samePart_fail (kind : ResourceKind) (u : Uri) {status : FetchAnswer}
    (hs : ¬ (status.saysGone && kind ≠ .external) = true) :
    t.SamePart part (t.fail kind u status).2 := by
  unfold fail
  rw [if_neg hs]
  split
  · exact samePart_setLoad hpart t kind u _
  · exact .refl t

/-! ## Pages -/

theorem samePart_claimPage (u : Uri) : t.SamePart part (t.claimPage u).2 := by
  unfold claimPage
  simp only
  split
  · exact .refl t
  · exact samePart_setConnection ((hpart.pages _ _ _ _).trans (hpart.load _ _))

theorem samePart_completePage (u : Uri) (messages : List Uri) (nextPage : Option String) :
    t.SamePart part (t.completePage u messages nextPage).2 := by
  unfold completePage
  split
  · rename_i c hc
    split
    · exact samePart_setConnection_of_get? hc (hpart.pages _ _ _ _)
    · exact .refl t
  · exact .refl t

theorem samePart_failPage (u : Uri) (messages : List Uri) (nextPage : Option String)
    (status : FetchAnswer) : t.SamePart part (t.failPage u messages nextPage status).2 := by
  unfold failPage
  split
  · rename_i c hc
    split
    · exact samePart_setConnection_of_get? hc ((hpart.pages _ _ _ _).trans (hpart.load _ _))
    · exact .refl t
  · exact .refl t

end

/-! ## Data sets -/

variable (t)

theorem samePart_claimDataSet {d : DataSet}
    (h : ∀ c, part (c.setDataSet { c.dataSet d with loading := true } d) = part c) (u : Uri) : t.SamePart part (t.claimDataSet u d).2 := by
  unfold claimDataSet
  simp only
  split
  · exact .refl t
  · exact samePart_setConnection (h _)

theorem samePart_completeDataSet {d : DataSet}
    (h : ∀ c, part (c.setDataSet ⟨false, true, 0, false⟩ d) = part c) (u : Uri) :
    t.SamePart part (t.completeDataSet u d).2 := by
  unfold completeDataSet
  split
  · rename_i c hc
    split
    · exact samePart_setConnection_of_get? hc (h c)
    · exact .refl t
  · exact .refl t

theorem samePart_failDataSet {d : DataSet}
    (h : ∀ c, part (c.setDataSet
      { c.dataSet d with loading := false, failCount := (c.dataSet d).failCount + 1 } d) = part c)
    (u : Uri) : t.SamePart part (t.failDataSet u d).2 := by
  unfold failDataSet
  split
  · rename_i c hc
    simp only
    split
    · exact samePart_setConnection_of_get? hc (h c)
    · exact .refl t
  · exact .refl t

theorem samePart_invalidatePetriNet
    (h : ∀ c, part { c with petriNetData := { c.petriNetData with dirty := true } } = part c)
    (u : Uri) :
    t.SamePart part (t.invalidatePetriNet u) := by
  unfold invalidatePetriNet
  split
  · rename_i c hc
    exact samePart_setConnection_of_get? hc (h c)
  · exact .refl t

/-! ## Bindings -/

theorem samePart_bindConnection (howner : ∀ c atom, part { c with atom := atom } = part c)
    (u atom : Uri) : t.SamePart part (t.bindConnection u atom) := by
  refine ⟨rfl, fun v => ?_⟩
  unfold bindConnection UriMap.getD
  rw [UriMap.get?_modify]
  split
  · cases t.connections.get? v with
    | none => rfl
    | some c => exact howner c _
  · rfl

theorem samePart_completeContainer (hpart : ConnectionRecord.IsAside part)
    (howner : ∀ c atom, part { c with atom := atom } = part c) (atom : Uri)
    (connections : List (Uri × Option Uri)) :
    t.SamePart part (t.completeContainer atom connections).2 := by
  have hcompleted := samePart_complete hpart t .container atom none
  unfold completeContainer
  split
  · rename_i t' ht
    rwa [ht] at hcompleted
  · rename_i t' ht
    rw [ht] at hcompleted
    exact hcompleted.trans ((allowsFlags_samePart hpart).addListed atom
      (fun listed _ t => t.samePart_bindConnection howner listed.1 atom) t')

end

end Tracker

end Parley.Loading
