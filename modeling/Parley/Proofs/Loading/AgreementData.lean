/-
What the load records say about the agreement data of connections. An operation that neither claims
nor reports agreement data leaves their records alone, or takes the record of the whole connection
away. A claim puts the data in flight, a completion that is accepted starts the count of failures
anew, and a failure that is accepted counts one more; nothing else changes with these.
-/
import Parley.Proofs.Loading.Frames

namespace Parley.Loading

/-- The operation claims or reports agreement data, or sets how often it may fail. -/
def Operation.handlesAgreements : Operation → Bool
  | .claimDataSet _ d | .completeDataSet _ d | .failDataSet _ d => d = .agreementData
  | .limitFailures _ => true
  | _ => false

namespace Tracker

/-- The record of the agreement data of a connection; that of an unknown connection is fresh. -/
def agreementOf (t : Tracker) (u : Uri) : DataSetRecord :=
  (t.connections.getD u .fresh).agreementData

theorem loading_agreementOf (t : Tracker) (u : Uri) :
    (t.agreementOf u).loading = t.inFlight (.dataSet u .agreementData) :=
  (inFlight_eq_isFetching (f := .dataSet u .agreementData) rfl).symm

theorem agreementOf_of_unknown {t : Tracker} {u : Uri} (h : t.connections.get? u = none) :
    t.agreementOf u = .fresh := by
  rw [agreementOf, UriMap.getD, h]
  rfl

theorem agreementOf_setConnection (t : Tracker) (u v : Uri) (c : ConnectionRecord) :
    (t.setConnection u c).agreementOf v = if v = u then c.agreementData else t.agreementOf v := by
  unfold agreementOf
  rw [getD_setConnection]
  split <;> rfl

/-! ## Changes that leave agreement data alone -/

/-- The failures allowed, and what is known of the agreement data of every connection, are the
same. -/
structure SameAgreements (t t' : Tracker) : Prop where
  limit : t'.maxFailures = t.maxFailures
  agreement : ∀ u, t'.agreementOf u = t.agreementOf u

/-- The failures allowed, and what is known of the agreement data of every connection that is still
known, are the same. -/
structure SparesAgreements (t t' : Tracker) : Prop where
  limit : t'.maxFailures = t.maxFailures
  agreement : ∀ u, t'.connections.get? u = none ∨ t'.agreementOf u = t.agreementOf u

section

variable {t t' t'' : Tracker}

theorem SameAgreements.refl (t : Tracker) : t.SameAgreements t :=
  ⟨rfl, fun _ => rfl⟩

theorem SameAgreements.trans (h : t.SameAgreements t') (h' : t'.SameAgreements t'') :
    t.SameAgreements t'' :=
  ⟨h'.limit.trans h.limit, fun u => (h'.agreement u).trans (h.agreement u)⟩

theorem SameAgreements.spares (h : t.SameAgreements t') : t.SparesAgreements t' :=
  ⟨h.limit, fun u => Or.inr (h.agreement u)⟩

/-- What is forgotten after other changes is forgotten, and the rest is the same. -/
theorem SameAgreements.trans_spares (h : t.SameAgreements t') (h' : t'.SparesAgreements t'') :
    t.SparesAgreements t'' :=
  ⟨h'.limit.trans h.limit, fun u => (h'.agreement u).imp_right (·.trans (h.agreement u))⟩

/-- The agreement data are a part of the record of a connection. -/
theorem SameAgreements.of_part (h : t.SamePart (·.agreementData) t') : t.SameAgreements t' :=
  ⟨h.limit, h.same⟩

theorem SparesAgreements.of_part (h : t.SparesPart (·.agreementData) t') :
    t.SparesAgreements t' :=
  ⟨h.limit, h.same⟩

theorem isAside_agreementData : ConnectionRecord.IsAside (·.agreementData) :=
  ⟨fun _ _ => rfl, fun _ _ _ _ => rfl⟩

theorem agreementData_setDataSet {d : DataSet} (h : d ≠ .agreementData) (c : ConnectionRecord)
    (r : DataSetRecord) : (c.setDataSet r d).agreementData = c.agreementData := by
  cases d with
  | agreementData => exact absurd rfl h
  | petriNetData | agreementDataset => rfl

theorem leaves_agreementData {op : Operation} (h : op.handlesAgreements = false) :
    op.Leaves (·.agreementData) := by
  cases op with
  | assignOwner u atom | completeContainer atom connections => exact fun _ _ => rfl
  | claimDataSet u d | completeDataSet u d | failDataSet u d =>
    exact fun c => agreementData_setDataSet (of_decide_eq_false h) c _
  | invalidatePetriNet u => exact fun _ => rfl
  | limitFailures n => cases h
  | _ => trivial

variable (t)

/-- An operation that does not handle agreement data and deletes nothing leaves the records of the
agreement data alone. -/
theorem sameAgreements_perform (op : Operation) (hrole : op.role ≠ .deletes)
    (h : op.handlesAgreements = false) : t.SameAgreements (t.perform op).2 :=
  .of_part (t.samePart_perform isAside_agreementData op hrole (leaves_agreementData h))

/-- An operation that does not handle agreement data leaves the records of the agreement data alone,
but for those that it removes. -/
theorem spares_perform (op : Operation) (h : op.handlesAgreements = false) :
    t.SparesAgreements (t.perform op).2 :=
  .of_part (t.sparesPart_perform isAside_agreementData op (leaves_agreementData h))

theorem allowsFlags_sameAgreements : AllowsFlags SameAgreements :=
  ⟨.refl, .trans, fun t kind u => t.sameAgreements_perform (.flag kind u) nofun rfl⟩

/-! ## Claims and reports of agreement data -/

/-- Of all the records, at most that of the agreement data of a connection differs. -/
structure OnlyAgreement (t t' : Tracker) (u : Uri) : Prop where
  atoms : t'.atoms = t.atoms
  containers : t'.containers = t.containers
  external : t'.external = t.external
  limit : t'.maxFailures = t.maxFailures
  others : ∀ v, v ≠ u → t'.connections.get? v = t.connections.get? v
  record : t'.connections.getD u .fresh =
    { t.connections.getD u .fresh with agreementData := t'.agreementOf u }
  known : t.connections.contains u = true → t'.connections.contains u = true

theorem OnlyAgreement.refl (u : Uri) : t.OnlyAgreement t u :=
  ⟨rfl, rfl, rfl, rfl, fun _ _ => rfl, rfl, id⟩

theorem OnlyAgreement.agreementOf_of_ne {t t' : Tracker} {u v : Uri} (h : t.OnlyAgreement t' u)
    (hv : v ≠ u) : t'.agreementOf v = t.agreementOf v := by
  unfold agreementOf UriMap.getD
  rw [h.others v hv]

theorem onlyAgreement_set (u : Uri) (r : DataSetRecord) :
    t.OnlyAgreement (t.setConnection u ((t.connections.getD u .fresh).setDataSet r .agreementData))
      u where
  atoms := rfl
  containers := rfl
  external := rfl
  limit := rfl
  others v hv := by
    show (t.connections.insert u _).get? v = _
    rw [UriMap.get?_insert, if_neg hv]
  record := by
    rw [agreementOf_setConnection, getD_setConnection, if_pos rfl, if_pos rfl]
    rfl
  known _ := by
    show (t.connections.insert u _).contains u = true
    simp

theorem agreementOf_set (u : Uri) (r : DataSetRecord) :
    (t.setConnection u ((t.connections.getD u .fresh).setDataSet r .agreementData)).agreementOf u =
      r := by
  rw [agreementOf_setConnection, if_pos rfl]
  rfl

/-- A claim puts the data in flight, if it is not. -/
theorem claimDataSet_agreementData (u : Uri) :
    t.OnlyAgreement (t.claimDataSet u .agreementData).2 u ∧
      (t.claimDataSet u .agreementData).2.agreementOf u =
        { t.agreementOf u with loading := true } := by
  unfold claimDataSet
  simp only
  split
  · rename_i h
    have hloading : (t.agreementOf u).loading = true := h
    exact ⟨.refl t u, by rw [← hloading]⟩
  · exact ⟨t.onlyAgreement_set u _, t.agreementOf_set u _⟩

/-- Data that is being fetched is that of a known connection. -/
theorem get?_of_loading_agreement {t : Tracker} {u : Uri} (h : (t.agreementOf u).loading = true) :
    t.connections.get? u = some (t.connections.getD u .fresh) := by
  cases hc : t.connections.get? u with
  | none =>
    rw [agreementOf_of_unknown hc] at h
    cases h
  | some c => rw [getD_of_get? t u hc]

/-- A completion that is accepted leaves no failures. -/
theorem completeDataSet_agreementData (u : Uri) :
    t.OnlyAgreement (t.completeDataSet u .agreementData).2 u ∧
      (t.completeDataSet u .agreementData).2.agreementOf u =
        if (t.agreementOf u).loading then ⟨false, true, 0, false⟩ else t.agreementOf u := by
  cases h : (t.agreementOf u).loading with
  | false =>
    rw [completeDataSet_of_idle ((t.loading_agreementOf u).symm.trans h)]
    exact ⟨.refl t u, rfl⟩
  | true =>
    have hloading : ((t.connections.getD u .fresh).dataSet .agreementData).loading = true := h
    unfold completeDataSet
    simp only [get?_of_loading_agreement h, hloading, if_true]
    exact ⟨t.onlyAgreement_set u _, t.agreementOf_set u _⟩

/-- A failure that is accepted counts one more. -/
theorem failDataSet_agreementData (u : Uri) :
    t.OnlyAgreement (t.failDataSet u .agreementData).2 u ∧
      (t.failDataSet u .agreementData).2.agreementOf u =
        if (t.agreementOf u).loading then
          { t.agreementOf u with loading := false, failCount := (t.agreementOf u).failCount + 1 }
        else t.agreementOf u := by
  cases h : (t.agreementOf u).loading with
  | false =>
    rw [failDataSet_of_idle ((t.loading_agreementOf u).symm.trans h)]
    exact ⟨.refl t u, rfl⟩
  | true =>
    have hloading : ((t.connections.getD u .fresh).dataSet .agreementData).loading = true := h
    unfold failDataSet
    simp only [get?_of_loading_agreement h, hloading, if_true]
    exact ⟨t.onlyAgreement_set u _, t.agreementOf_set u _⟩

/-- Another fetch of the agreement data may be made exactly if failures are left. -/
theorem mayRetry_agreementData_of_pos (hlimit : 0 < t.maxFailures) (u : Uri) :
    t.mayRetry u .agreementData = decide ((t.agreementOf u).failCount < t.maxFailures) := by
  unfold mayRetry agreementOf UriMap.getD
  cases t.connections.get? u with
  | none => exact (decide_eq_true hlimit).symm
  | some c => rfl

end

end Tracker

end Parley.Loading
