/-
Whether the petri net data of a connection is recorded as outdated. A mark on a known connection
records it; a completed fetch of the data clears the record, and so does the removal of the
connection; nothing else has to do with it. So after any run the data is outdated exactly if the
last of these steps was a mark. Main statement: what this makes of a mark that comes while the data
is being fetched. It stands until the fetch is completed, and not longer, although what is fetched
may be older than the mark.
-/
import Parley.Proofs.Loading.Frames
import Parley.Proofs.Loading.OneFetch

namespace Parley.Loading

/-- The operation marks petri net data as outdated, or reports that it was fetched. -/
def Operation.handlesPetriNet : Operation → Bool
  | .completeDataSet _ d => d = .petriNetData
  | .invalidatePetriNet _ => true
  | _ => false

namespace Tracker

/-- Whether the petri net data of a connection is recorded as outdated; that of an unknown
connection is not. -/
def petriNetDirty (t : Tracker) (u : Uri) : Bool :=
  (t.connections.get? u).any (·.petriNetData.dirty)

theorem petriNetDirty_eq_getD (t : Tracker) (u : Uri) :
    t.petriNetDirty u = (t.connections.getD u .fresh).petriNetData.dirty := by
  unfold petriNetDirty UriMap.getD
  cases t.connections.get? u <;> rfl

theorem knows_of_petriNetDirty {t : Tracker} {u : Uri} (h : t.petriNetDirty u = true) :
    t.knows .connection u = true := by
  obtain ⟨c, hc, -⟩ := (Option.any_eq_true ..).1 h
  simp [knows, load?, hc]

theorem petriNetDirty_setConnection (t : Tracker) (u v : Uri) (c : ConnectionRecord) :
    (t.setConnection u c).petriNetDirty v =
      if v = u then c.petriNetData.dirty else t.petriNetDirty v := by
  rw [petriNetDirty_eq_getD, petriNetDirty_eq_getD, getD_setConnection]
  split <;> rfl

/-! ## Operations -/

theorem isAside_dirty : ConnectionRecord.IsAside (·.petriNetData.dirty) :=
  ⟨fun _ _ => rfl, fun _ _ _ _ => rfl⟩

/-- Changing anything but the mark of a data set leaves the mark of the petri net data alone. -/
theorem dirty_setDataSet (c : ConnectionRecord) {r : DataSetRecord} {d : DataSet}
    (h : r.dirty = (c.dataSet d).dirty) :
    (c.setDataSet r d).petriNetData.dirty = c.petriNetData.dirty := by
  cases d with
  | petriNetData => exact h
  | agreementData | agreementDataset => rfl

theorem petriNetDirty_perform_of_other (t : Tracker) (op : Operation) (u : Uri)
    (hrole : op.role ≠ .deletes) (h : op.handlesPetriNet = false) :
    (t.perform op).2.petriNetDirty u = t.petriNetDirty u := by
  have hleaves (hop : op.Leaves (·.petriNetData.dirty)) :
      (t.perform op).2.petriNetDirty u = t.petriNetDirty u := by
    rw [petriNetDirty_eq_getD, petriNetDirty_eq_getD]
    exact (t.samePart_perform isAside_dirty op hrole hop).same u
  cases op with
  | claimDataSet v d | failDataSet v d => exact hleaves fun c => dirty_setDataSet c rfl
  | completeDataSet v d =>
    refine hleaves fun c => ?_
    cases d with
    | petriNetData => cases h
    | agreementData | agreementDataset => rfl
  | assignOwner v atom | completeContainer atom connections => exact hleaves fun _ _ => rfl
  | invalidatePetriNet v => cases h
  | limitFailures n => rfl
  | _ => exact hleaves trivial

theorem petriNetDirty_invalidatePetriNet (t : Tracker) (u v : Uri) :
    (t.invalidatePetriNet u).petriNetDirty v = true ↔
      v = u ∧ t.knows .connection u = true ∨ t.petriNetDirty v = true := by
  unfold invalidatePetriNet
  cases hc : t.connections.get? u with
  | none =>
    have hunknown : t.knows .connection u = false := by simp [knows, load?, hc]
    simp [hunknown]
  | some c =>
    have hknown : t.knows .connection u = true := by simp [knows, load?, hc]
    simp only [petriNetDirty_setConnection, hknown, and_true]
    split <;> simp_all

/-- A completed fetch clears the mark. -/
theorem petriNetDirty_completeDataSet (t : Tracker) (u v : Uri) :
    (t.completeDataSet u .petriNetData).2.petriNetDirty v = true ↔
      t.petriNetDirty v = true ∧ ¬ (v = u ∧ t.inFlight (.dataSet u .petriNetData) = true) := by
  cases hbusy : t.inFlight (.dataSet u .petriNetData) with
  | false => simp [completeDataSet_of_idle hbusy]
  | true =>
    obtain ⟨c, hc, hloading⟩ := (Option.any_eq_true ..).1 hbusy
    unfold completeDataSet
    simp only [hc, hloading, if_true, petriNetDirty_setConnection, and_true]
    split <;> simp_all [ConnectionRecord.setDataSet]

/-- Records that are removed are not outdated any more, and the others are left alone. -/
theorem Sheds.petriNetDirty_iff {t t' : Tracker} (h : t.Sheds t') (u : Uri) :
    t'.petriNetDirty u = true ↔ t.petriNetDirty u = true ∧ t'.knows .connection u = true := by
  refine ⟨fun hdirty => ⟨?_, knows_of_petriNetDirty hdirty⟩, fun ⟨hdirty, hknown⟩ => ?_⟩
  all_goals
    unfold petriNetDirty at hdirty ⊢
    rcases h.connections u with hgone | hsame
  · simp [hgone] at hdirty
  · rwa [hsame] at hdirty
  · simp [knows, load?, hgone] at hknown
  · rwa [hsame]

end Tracker

/-! ## Steps -/

namespace Step

/-- A mark on a known connection. -/
def Outdates (s : Step) (u : Uri) : Prop :=
  s.operation = .invalidatePetriNet u ∧ s.before.knows .connection u = true

/-- An accepted completion of a fetch of the petri net data, or a deletion of the connection. -/
def Renews (s : Step) (u : Uri) : Prop :=
  s.operation = .completeDataSet u .petriNetData ∧ s.answer = .told true ∨
    s.Drops (.dataSet u .petriNetData)

variable {s : Step} {u : Uri}

/-- What renews the data ends its fetch. -/
theorem Renews.ends (h : s.Renews u) : s.Ends (.dataSet u .petriNetData) := by
  refine h.imp_left fun ⟨hop, hanswer⟩ => ?_
  constructor
  · rw [hop]
    rfl
  · rw [hanswer]
    rfl

/-- The law of a step. -/
theorem petriNetDirty_after_iff (s : Step) (u : Uri) :
    s.after.petriNetDirty u = true ↔
      s.Outdates u ∨ s.before.petriNetDirty u = true ∧ ¬ s.Renews u := by
  obtain ⟨t, op⟩ := s
  by_cases hrole : op.role = .deletes
  · have hmark : ¬ (Step.mk t op).Outdates u := by
      rintro ⟨rfl, -⟩
      cases hrole
    have hdone : op ≠ .completeDataSet u .petriNetData := by
      rintro rfl
      cases hrole
    refine ((Tracker.sheds_perform hrole t).petriNetDirty_iff u).trans ?_
    simp only [hmark, false_or]
    refine and_congr_right fun hdirty => ?_
    simp [Renews, Drops, hrole, hdone, Fetch.record, Tracker.knows_of_petriNetDirty hdirty, after]
  · have hdrop : ¬ (Step.mk t op).Drops (.dataSet u .petriNetData) := fun h => hrole h.1
    cases hop : op.handlesPetriNet with
    | false =>
      have hmark : op ≠ .invalidatePetriNet u := by
        rintro rfl
        cases hop
      have hdone : op ≠ .completeDataSet u .petriNetData := by
        rintro rfl
        cases hop
      simp [after, t.petriNetDirty_perform_of_other op u hrole hop, Outdates, Renews, hmark, hdone,
        hdrop]
    | true =>
      cases op with
      | invalidatePetriNet v =>
        refine (t.petriNetDirty_invalidatePetriNet v u).trans ?_
        by_cases hu : u = v
        · subst hu
          simp [Outdates, Renews, hdrop]
        · simp [Outdates, Renews, hdrop, hu, Ne.symm hu]
      | completeDataSet v d =>
        obtain rfl : d = .petriNetData := of_decide_eq_true hop
        have hanswer : (Step.mk t (.completeDataSet v .petriNetData)).answer =
            .told (t.inFlight (.dataSet v .petriNetData)) :=
          congrArg Answer.told (t.reports_completeDataSet v .petriNetData).1
        refine (t.petriNetDirty_completeDataSet v u).trans ?_
        by_cases hu : u = v
        · subst hu
          simp [Outdates, Renews, hdrop, hanswer]
        · simp [Outdates, Renews, hdrop, hu, Ne.symm hu]
      | _ => cases hop

end Step

/-! ## Runs -/

namespace Tracker

variable {u : Uri}

/-- Petri net data is outdated after a run if it was so before and nothing renewed it, or if it was
marked in the run and nothing renewed it since. -/
theorem petriNetDirty_performAll_iff (t : Tracker) (ops : List Operation) (u : Uri) :
    (t.performAll ops).petriNetDirty u = true ↔
      (t.petriNetDirty u = true ∧ ∀ s ∈ t.steps ops, ¬ s.Renews u) ∨
        ∃ past m since, t.steps ops = past ++ m :: since ∧ m.Outdates u ∧
          ∀ s ∈ since, ¬ s.Renews u :=
  holds_performAll_iff (P := fun t => t.petriNetDirty u = true)
    (fun s => s.petriNetDirty_after_iff u) t ops

/-- While the data is being fetched, every mark counts. -/
theorem petriNetDirty_performAll_of_inFlight {t : Tracker} {ops : List Operation}
    (hbusy : t.inFlight (.dataSet u .petriNetData) = true)
    (hkept : ∀ s ∈ t.steps ops, ¬ s.Ends (.dataSet u .petriNetData)) :
    (t.performAll ops).petriNetDirty u = true ↔
      t.petriNetDirty u = true ∨ Operation.invalidatePetriNet u ∈ ops := by
  induction ops generalizing t with
  | nil => simp [performAll]
  | cons op ops ih =>
    obtain ⟨hfirst, hrest⟩ := List.forall_mem_cons.1 hkept
    have hbusy' : (Step.mk t op).after.inFlight (.dataSet u .petriNetData) = true :=
      (Step.inFlight_after_iff _ _).2 (Or.inr ⟨hbusy, hfirst⟩)
    have hmark : (Step.mk t op).Outdates u ↔ op = .invalidatePetriNet u :=
      and_iff_left (knows_of_inFlight hbusy)
    have hafter : (Step.mk t op).after.petriNetDirty u = true ↔
        op = .invalidatePetriNet u ∨ t.petriNetDirty u = true := by
      rw [Step.petriNetDirty_after_iff, hmark, and_iff_left fun h => hfirst h.ends]
    refine (ih hbusy' hrest).trans ?_
    rw [hafter, List.mem_cons, eq_comm (a := op)]
    exact or_assoc.trans or_left_comm

end Tracker

/-- The petri net data of a connection is being fetched, and nothing ends the fetch until it is
completed. Before the completion the data is outdated exactly if it was so when the fetch was
started or was marked since; after it the data is not, and it is outdated later on exactly if it is
marked again. -/
theorem marked_until_fetched (t : Tracker) (u : Uri) {started : Tracker}
    (hstart : t.claimDataSet u .petriNetData = (.started, started)) (between : List Operation)
    (hkept : ∀ s ∈ started.steps between, ¬ s.Ends (.dataSet u .petriNetData)) :
    ((started.performAll between).petriNetDirty u = true ↔
        t.petriNetDirty u = true ∨ Operation.invalidatePetriNet u ∈ between) ∧
      ∃ fetched, (started.performAll between).completeDataSet u .petriNetData = (true, fetched) ∧
        fetched.petriNetDirty u = false ∧
        ∀ later, (fetched.performAll later).petriNetDirty u = true ↔
          ∃ past m since, fetched.steps later = past ++ m :: since ∧ m.Outdates u ∧
            ∀ s ∈ since, ¬ s.Renews u := by
  obtain rfl : (t.claimDataSet u .petriNetData).2 = started := congrArg Prod.snd hstart
  have hbusy : (t.claimDataSet u .petriNetData).2.inFlight (.dataSet u .petriNetData) = true :=
    ((t.claims_claimDataSet u .petriNetData).2 _).2 (Or.inl rfl)
  have hsame : (t.claimDataSet u .petriNetData).2.petriNetDirty u = t.petriNetDirty u :=
    t.petriNetDirty_perform_of_other (.claimDataSet u .petriNetData) u nofun rfl
  refine ⟨by rw [Tracker.petriNetDirty_performAll_of_inFlight hbusy hkept, hsame], ?_⟩
  have hwaiting := (Tracker.inFlight_performAll_iff _ between _).2 (Or.inl ⟨hbusy, hkept⟩)
  generalize (t.claimDataSet u .petriNetData).2.performAll between = waiting at hwaiting ⊢
  have hfetched : (waiting.completeDataSet u .petriNetData).2.petriNetDirty u = false := by
    refine Bool.eq_false_iff.2 fun h => ?_
    exact ((waiting.petriNetDirty_completeDataSet u u).1 h).2 ⟨rfl, hwaiting⟩
  have haccepted := (waiting.reports_completeDataSet u .petriNetData).1.trans hwaiting
  refine ⟨_, Prod.ext haccepted rfl, hfetched, fun later => ?_⟩
  rw [Tracker.petriNetDirty_performAll_iff, hfetched]
  simp

/-- The mark comes while the data is being fetched. -/
theorem marked_until_fetched_markedMeanwhile :
    ∃ started, (Tracker.empty 3).claimDataSet ⟨"c"⟩ .petriNetData = (.started, started) ∧
      (started.performAll [.invalidatePetriNet ⟨"c"⟩]).petriNetDirty ⟨"c"⟩ = true ∧
      ∃ fetched, (started.performAll [.invalidatePetriNet ⟨"c"⟩]).completeDataSet ⟨"c"⟩
          .petriNetData = (true, fetched) ∧
        fetched.petriNetDirty ⟨"c"⟩ = false := by
  obtain ⟨hmarked, fetched, hfetched, hclear, -⟩ :=
    marked_until_fetched (.empty 3) ⟨"c"⟩ rfl [.invalidatePetriNet ⟨"c"⟩] (by
      rintro s hs (⟨hrole, -⟩ | ⟨hrole, -⟩)
      all_goals
        obtain rfl := List.mem_singleton.1 hs
        cases hrole)
  exact ⟨_, rfl, hmarked.2 (Or.inr (List.mem_singleton.2 rfl)), fetched, hfetched, hclear⟩

/-- A mark that comes while the data is being fetched is gone with the completion, just as one that
came before the fetch was started. -/
theorem mark_lost_to_fetch :
    ∃ a m b e, (Tracker.empty 3).steps
        [.claimDataSet ⟨"c"⟩ .petriNetData, .invalidatePetriNet ⟨"c"⟩, .beginEdit ⟨"a"⟩,
          .completeDataSet ⟨"c"⟩ .petriNetData] = [a, m, b, e] ∧
      a.Starts (.dataSet ⟨"c"⟩ .petriNetData) ∧ m.Outdates ⟨"c"⟩ ∧
      b.after.petriNetDirty ⟨"c"⟩ = true ∧ e.Lands (.dataSet ⟨"c"⟩ .petriNetData) ∧
      e.after.petriNetDirty ⟨"c"⟩ = false :=
  ⟨_, _, _, _, rfl, ⟨rfl, rfl⟩, ⟨rfl, rfl⟩, rfl, ⟨rfl, rfl⟩, rfl⟩

end Parley.Loading
