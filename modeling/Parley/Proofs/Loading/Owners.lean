/-
Which atom owns a connection, according to the load records. Fetching leaves the owners as they are,
whatever comes of it, unless the resource turns out to be deleted on the node. A binding sets the
owner of its connection, and when an atom goes, exactly the connections bound to it go with it.
-/
import Parley.Proofs.Loading.Parts

namespace Parley.Loading.Tracker

/-- The atom that the record of a connection is bound to. -/
def ownerOf (t : Tracker) (u : Uri) : Option Uri :=
  (t.connections.get? u).bind (·.atom)

section

variable (t : Tracker) (u v : Uri)

/-! ## Records of connections -/

@[simp] theorem ownerOf_bump : t.bump.ownerOf v = t.ownerOf v := rfl

/-- An unknown connection counts as a fresh record, which is bound to nothing. -/
theorem ownerOf_eq_getD : t.ownerOf v = (t.connections.getD v .fresh).atom := by
  unfold ownerOf UriMap.getD
  cases t.connections.get? v <;> rfl

theorem ownerOf_setConnection (c : ConnectionRecord) :
    (t.setConnection u c).ownerOf v = if v = u then c.atom else t.ownerOf v := by
  show ((t.connections.insert u c).get? v).bind _ = _
  rw [UriMap.get?_insert]
  split <;> rfl

/-- The owner is a part of the record of a connection. -/
theorem SamePart.ownerOf {t t' : Tracker} (h : t.SamePart (·.atom) t') (v : Uri) :
    t'.ownerOf v = t.ownerOf v := by
  rw [ownerOf_eq_getD, ownerOf_eq_getD]
  exact h.same v

/-! ## Fetching -/

theorem isAside_atom : ConnectionRecord.IsAside (·.atom) :=
  ⟨fun _ _ => rfl, fun _ _ _ _ => rfl⟩

theorem atom_setDataSet (c : ConnectionRecord) (r : DataSetRecord) (d : DataSet) :
    (c.setDataSet r d).atom = c.atom := by
  cases d <;> rfl

@[simp] theorem ownerOf_setLoad (kind : ResourceKind) (l : LoadRecord) :
    (t.setLoad kind u l).ownerOf v = t.ownerOf v :=
  (samePart_setLoad isAside_atom t kind u l).ownerOf v

@[simp] theorem ownerOf_flag (kind : ResourceKind) :
    (t.flag kind u).2.ownerOf v = t.ownerOf v :=
  (samePart_flag isAside_atom t kind u).ownerOf v

@[simp] theorem ownerOf_claim (kind : ResourceKind) :
    (t.claim kind u).2.ownerOf v = t.ownerOf v :=
  (samePart_claim isAside_atom t kind u).ownerOf v

@[simp] theorem ownerOf_complete (kind : ResourceKind) (status : Option FetchAnswer) :
    (t.complete kind u status).2.ownerOf v = t.ownerOf v :=
  (samePart_complete isAside_atom t kind u status).ownerOf v

theorem allowsFlags_ownerOf (v : Uri) :
    AllowsFlags fun t t' => t'.ownerOf v = t.ownerOf v where
  refl _ := rfl
  trans h h' := h'.trans h
  flag t kind u := ownerOf_flag t u v kind

@[simp] theorem ownerOf_claimPage : (t.claimPage u).2.ownerOf v = t.ownerOf v :=
  (samePart_claimPage isAside_atom t u).ownerOf v

@[simp] theorem ownerOf_completePage (messages : List Uri) (nextPage : Option String) :
    (t.completePage u messages nextPage).2.ownerOf v = t.ownerOf v :=
  (samePart_completePage isAside_atom t u messages nextPage).ownerOf v

@[simp] theorem ownerOf_failPage (messages : List Uri) (nextPage : Option String)
    (status : FetchAnswer) :
    (t.failPage u messages nextPage status).2.ownerOf v = t.ownerOf v :=
  (samePart_failPage isAside_atom t u messages nextPage status).ownerOf v

@[simp] theorem ownerOf_claimDataSet (d : DataSet) :
    (t.claimDataSet u d).2.ownerOf v = t.ownerOf v :=
  (t.samePart_claimDataSet (fun c => atom_setDataSet c _ d) u).ownerOf v

@[simp] theorem ownerOf_completeDataSet (d : DataSet) :
    (t.completeDataSet u d).2.ownerOf v = t.ownerOf v :=
  (t.samePart_completeDataSet (fun c => atom_setDataSet c _ d) u).ownerOf v

@[simp] theorem ownerOf_failDataSet (d : DataSet) :
    (t.failDataSet u d).2.ownerOf v = t.ownerOf v :=
  (t.samePart_failDataSet (fun c => atom_setDataSet c _ d) u).ownerOf v

@[simp] theorem ownerOf_invalidatePetriNet :
    (t.invalidatePetriNet u).ownerOf v = t.ownerOf v :=
  (t.samePart_invalidatePetriNet (fun _ => rfl) u).ownerOf v

/-! ## Binding -/

@[simp] theorem ownerOf_assignOwner (atom : Uri) :
    (t.assignOwner u atom).ownerOf v = if v = u then some atom else t.ownerOf v :=
  ownerOf_setConnection t u v { t.connections.getD u .fresh with atom := some atom }

theorem ownerOf_bindConnection_of_ne (atom : Uri) (h : v ≠ u) :
    (t.bindConnection u atom).ownerOf v = t.ownerOf v := by
  unfold bindConnection ownerOf
  rw [UriMap.get?_modify, if_neg h]

/-- The container of an atom binds no connection that it does not list. -/
theorem ownerOf_completeContainer_of_unlisted (atom : Uri)
    {connections : List (Uri × Option Uri)} (h : ∀ listed ∈ connections, v ≠ listed.1) :
    (t.completeContainer atom connections).2.ownerOf v = t.ownerOf v := by
  have hall (t : Tracker) : (connections.foldl (addListed atom) t).ownerOf v = t.ownerOf v :=
    (allowsFlags_ownerOf v).addListed atom
      (fun listed hlisted t => t.ownerOf_bindConnection_of_ne listed.1 v atom (h listed hlisted)) t
  have hcomplete := ownerOf_complete t atom v .container none
  unfold completeContainer
  split
  · rename_i t' ht
    rw [ht] at hcomplete
    exact hcomplete
  · rename_i t' ht
    rw [ht] at hcomplete
    exact (hall t').trans hcomplete

/-! ## Deletion -/

/-- With an atom, exactly the connections bound to it go. -/
@[simp] theorem ownerOf_forgetAtom (atom : Uri) :
    (t.forgetAtom atom).2.ownerOf v = (t.ownerOf v).filter fun a => a ≠ atom := by
  show ((t.connections.filter fun _ c => c.atom ≠ some atom).get? v).bind _ = _
  unfold ownerOf
  rw [UriMap.get?_filter]
  cases t.connections.get? v with
  | none => rfl
  | some c =>
    cases h : c.atom with
    | none => simp [Option.filter, h]
    | some a => by_cases e : a = atom <;> simp [Option.filter, h, e]

@[simp] theorem ownerOf_forgetConnection :
    (t.forgetConnection u).2.ownerOf v = if v = u then none else t.ownerOf v := by
  show ((t.connections.erase u).get? v).bind _ = _
  rw [UriMap.get?_erase]
  split <;> rfl

/-! ## Failures -/

/-- The failure of a deleted atom, or of its container, takes the atom away. -/
theorem fail_of_gone {kind : ResourceKind} (hc : kind ≠ .connection) (he : kind ≠ .external)
    {status : FetchAnswer} (h : status.saysGone = true) :
    t.fail kind u status = (.gone (t.forgetAtom u).1, (t.forgetAtom u).2) := by
  simp [fail, h, hc, he]

theorem fail_connection_of_gone {status : FetchAnswer} (h : status.saysGone = true) :
    t.fail .connection u status =
      (.gone (t.forgetConnection u).1, (t.forgetConnection u).2) := by
  simp [fail, h]

/-- Any other failure is recorded while the fetch is in flight. -/
theorem fail_of_kept {kind : ResourceKind} {status : FetchAnswer}
    (h : status.saysGone = false ∨ kind = .external) :
    t.fail kind u status =
      if t.isIn .loading kind u then
        (.failed, (t.setLoad kind u ⟨.failedToLoad, some status⟩).bump)
      else (.stale, t) := by
  have hkept : (status.saysGone && decide (kind ≠ .external)) = false := by
    rcases h with h | rfl
    · rw [h, Bool.false_and]
    · simp
  unfold fail
  rw [if_neg (by rw [hkept]; exact Bool.false_ne_true)]

/-- It removes nothing and leaves the owners as they are. -/
theorem ownerOf_fail_of_kept {kind : ResourceKind} {status : FetchAnswer}
    (h : status.saysGone = false ∨ kind = .external) :
    ∃ f t', t.fail kind u status = (f, t') ∧ (∀ removed, f ≠ .gone removed) ∧
      ∀ v, t'.ownerOf v = t.ownerOf v := by
  rw [fail_of_kept t u h]
  split
  · exact ⟨_, _, rfl, nofun, by simp⟩
  · exact ⟨_, _, rfl, nofun, fun _ => rfl⟩

end

end Parley.Loading.Tracker
