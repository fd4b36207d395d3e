/-
What one operation does to the load record of one resource: to its phase, and to what the record
keeps of the node's last answer. An operation is about one resource, and leaves every other record
as it is, apart from those that go with a deletion, and from the unknown resources that a container
or a message names, which are flagged.

A connection has two cycles and one status. The fetch of a page of its messages runs independently
of the fetch of the connection itself; it leaves the phase as it is, but its claim clears the status
and its failure sets it.
-/
import Parley.Proofs.Loading.OneFetch
import Parley.Proofs.Loading.Deletion

namespace Parley.Loading

/-- The load record of a resource that is flagged: only what is unknown changes, and what is blank
stays unknown. -/
def LoadRecord.flagged (u : Uri) (l : Option LoadRecord) : Option LoadRecord :=
  if l = none ∧ u.isBlank = false then some ⟨.toLoad, none⟩ else l

/-- The load record of a resource that gets to be known, unless it is already. -/
def LoadRecord.known (l : Option LoadRecord) : Option LoadRecord :=
  some (l.getD .fresh)

theorem LoadRecord.flagged_flagged (u : Uri) (l : Option LoadRecord) :
    flagged u (flagged u l) = flagged u l := by
  unfold flagged
  by_cases h : l = none ∧ u.isBlank = false
  · simp [h]
  · simp only [if_neg h]

namespace Operation

/-- The resource that an operation is about. A reset is about no single one, and neither is a
message. -/
def subject : Operation → Option (ResourceKind × Uri)
  | .flag kind u | .claim kind u | .complete kind u _ | .fail kind u _ => some (kind, u)
  | .forgetAtom u | .beginEdit u | .endEdit u => some (.atom, u)
  | .completeContainer u _ => some (.container, u)
  | .forgetConnection u | .assignOwner u _ | .claimPage u | .completePage u _ _
  | .failPage u _ _ _ | .claimDataSet u _ | .completeDataSet u _ | .failDataSet u _
  | .invalidatePetriNet u => some (.connection, u)
  | .flagParticipants _ | .forgetAll | .limitFailures _ => none

/-- The resources that a container lists: its connections, and the atoms they lead to. -/
def Lists (connections : List (Uri × Option Uri)) (kind : ResourceKind) (u : Uri) : Prop :=
  ∃ listed ∈ connections, kind = .connection ∧ u = listed.1 ∨ kind = .atom ∧ listed.2 = some u

instance decidableLists (connections : List (Uri × Option Uri)) (kind : ResourceKind) (u : Uri) :
    Decidable (Lists connections kind u) :=
  inferInstanceAs (Decidable (∃ listed ∈ connections, _))

/-- The atoms that a message names, which are those of its sockets. An answer of the node names
none. -/
def atomsNamed (m : Message) : List Uri :=
  match m.kind with
  | .response _ => []
  | _ => m.sender?.toList ++ m.recipient?.toList

end Operation

namespace Step

/-- The resources that a step names for loading. -/
def Names (s : Step) (kind : ResourceKind) (u : Uri) : Prop :=
  s.operation = .flag kind u ∨
    (∃ m, s.operation = .flagParticipants m ∧ kind = .atom ∧ u ∈ Operation.atomsNamed m) ∨
    ∃ atom connections, s.operation = .completeContainer atom connections ∧ s.answer = .told true ∧
      Operation.Lists connections kind u

/-- The records that a step removes. -/
def Removes (s : Step) (kind : ResourceKind) (u : Uri) : Prop :=
  match s.operation with
  | .forgetAll => True
  | .forgetAtom atom => s.before.goesWithAtom atom kind u = true
  | .forgetConnection c => s.before.goesWith .connection c kind u = true
  | .fail kind' v status => status.saysGone = true ∧ s.before.goesWith kind' v kind u = true
  | _ => False

/-- A recorded failure of the fetch of a resource. -/
def Fails (s : Step) (kind : ResourceKind) (u : Uri) (status : FetchAnswer) : Prop :=
  s.operation = .fail kind u status ∧ s.answer = .failure .failed

/-- What a step on the message pages of a connection makes its status: a claim that is granted
clears it, and a failure that counts sets it. -/
def pageWord? (s : Step) (kind : ResourceKind) (u : Uri) : Option (Option FetchAnswer) :=
  match s.operation, s.answer with
  | .claimPage v, .claim .started => if kind = .connection ∧ u = v then some none else none
  | .failPage v _ _ status, .told true =>
    if kind = .connection ∧ u = v then some (some status) else none
  | _, _ => none

end Step

/-- What a step may do to the load record of a resource. -/
inductive LoadChange (s : Step) (kind : ResourceKind) (u : Uri) :
    Option LoadRecord → Option LoadRecord → Prop
  | kept {l} : s.pageWord? kind u = none → LoadChange s kind u l l
  | appeared : s.operation.subject = some (kind, u) → LoadChange s kind u none (some .fresh)
  | named : s.Names kind u → u.isBlank = false → LoadChange s kind u none (some ⟨.toLoad, none⟩)
  | started {l} : s.operation = .claim kind u → l.map (·.phase) ≠ some .loading →
      LoadChange s kind u l (some ⟨.loading, none⟩)
  | landed {l status} : s.operation.subject = some (kind, u) → l.phase = .loading →
      LoadChange s kind u (some l) (some ⟨.loaded, status⟩)
  | failed {l status} : s.Fails kind u status → l.phase = .loading →
      LoadChange s kind u (some l) (some ⟨.failedToLoad, some status⟩)
  /-- The page of an unknown connection makes the connection known. -/
  | paged {l status} : s.operation.subject = some (kind, u) → s.pageWord? kind u = some status →
      LoadChange s kind u l (some { l.getD .fresh with status := status })
  | removed {l} : s.Removes kind u → LoadChange s kind u l none

namespace Tracker

section

variable (t : Tracker) (kind : ResourceKind) (u : Uri)

/-! ## Flags -/

theorem load?_flag (kind' : ResourceKind) (v : Uri) :
    (t.flag kind' v).2.load? kind u =
      if kind = kind' ∧ u = v then LoadRecord.flagged u (t.load? kind u) else t.load? kind u := by
  have hknows : t.knows kind' v = (t.load? kind' v).isSome := rfl
  unfold flag
  split
  · rename_i h
    split
    · rename_i e
      obtain ⟨rfl, rfl⟩ := e
      rw [LoadRecord.flagged, if_neg]
      rintro ⟨hnone, hblank⟩
      simp [hknows, hnone, hblank] at h
    · rfl
  · rename_i h
    rw [load?_bump, load?_setLoad]
    split
    · rename_i e
      obtain ⟨rfl, rfl⟩ := e
      obtain ⟨hblank, hunknown⟩ : u.isBlank = false ∧ t.knows kind u = false := by simpa using h
      have hnone : t.load? kind u = none := by simpa [hknows] using hunknown
      rw [LoadRecord.flagged, if_pos ⟨hnone, hblank⟩]
    · rfl

/-- One flag after the other: a resource is flagged if one of them names it. -/
theorem load?_foldl {α : Type} {step : Tracker → α → Tracker} {named : α → Prop}
    [DecidablePred named]
    (hstep : ∀ t x, (step t x).load? kind u =
      if named x then LoadRecord.flagged u (t.load? kind u) else t.load? kind u) (xs : List α) :
    (xs.foldl step t).load? kind u =
      if ∃ x ∈ xs, named x then LoadRecord.flagged u (t.load? kind u) else t.load? kind u := by
  induction xs generalizing t with
  | nil => simp
  | cons x xs ih =>
    rw [List.foldl_cons, ih, hstep]
    by_cases hx : named x <;> by_cases hxs : ∃ x ∈ xs, named x <;>
      simp [hx, hxs, LoadRecord.flagged_flagged]

theorem load?_flagParticipants (m : Message) :
    (t.flagParticipants m).load? kind u =
      if kind = .atom ∧ u ∈ Operation.atomsNamed m then LoadRecord.flagged u (t.load? kind u)
      else t.load? kind u := by
  have hfold : t.flagParticipants m =
      (Operation.atomsNamed m).foldl (fun t v => (t.flag .atom v).2) t := by
    cases h : m.kind <;> simp [flagParticipants, Operation.atomsNamed, h]
  have hnamed : (∃ v ∈ Operation.atomsNamed m, kind = .atom ∧ u = v) ↔
      kind = .atom ∧ u ∈ Operation.atomsNamed m := by
    constructor
    · rintro ⟨v, hv, hkind, rfl⟩
      exact ⟨hkind, hv⟩
    · rintro ⟨hkind, hu⟩
      exact ⟨u, hu, hkind, rfl⟩
  rw [hfold, load?_foldl t kind u fun t v => t.load?_flag kind u .atom v]
  simp only [hnamed]

/-! ## Completions -/

theorem load?_complete_of_ne {kind kind' : ResourceKind} (h : kind ≠ kind') (v : Uri)
    (status : Option FetchAnswer) :
    (t.complete kind' v status).2.load? kind u = t.load? kind u := by
  unfold complete
  split
  · rw [load?_bump, load?_setLoad, if_neg fun e => h e.1]
  · rfl

/-! ## Records of connections -/

/-- An unknown connection counts as a fresh record. -/
theorem load_getD (v : Uri) :
    (t.connections.getD v .fresh).load = (t.load? .connection v).getD .fresh := by
  show _ = ((t.connections.get? v).map (·.load)).getD .fresh
  rw [UriMap.getD]
  cases t.connections.get? v <;> rfl

theorem load?_setConnection (v : Uri) (c : ConnectionRecord) :
    (t.setConnection v c).load? kind u =
      if kind = .connection ∧ u = v then some c.load else t.load? kind u := by
  show ({ t with connections := t.connections.insert v c } : Tracker).bump.load? kind u = _
  rw [load?_bump]
  cases kind with
  | connection => by_cases h : u = v <;> simp [load?, h]
  | atom | container | external => simp [load?]

/-- A connection whose load record is set to what it is gets to be known. -/
theorem load?_setConnection_of {v : Uri} {c : ConnectionRecord}
    (h : c.load = (t.connections.getD v .fresh).load) :
    (t.setConnection v c).load? kind u =
      if kind = .connection ∧ u = v then LoadRecord.known (t.load? kind u)
      else t.load? kind u := by
  rw [load?_setConnection]
  split
  · rename_i e
    obtain ⟨rfl, rfl⟩ := e
    rw [h, load_getD]
    rfl
  · rfl

theorem load?_bindConnection (v atom : Uri) :
    (t.bindConnection v atom).load? kind u = t.load? kind u := by
  cases kind with
  | connection =>
    show ((t.connections.modify v _).get? u).map (·.load) = (t.connections.get? u).map (·.load)
    rw [UriMap.get?_modify]
    split
    · cases t.connections.get? u <;> rfl
    · rfl
  | atom | container | external => rfl

theorem load?_addListed (atom : Uri) (listed : Uri × Option Uri) :
    (addListed atom t listed).load? kind u =
      if kind = .connection ∧ u = listed.1 ∨ kind = .atom ∧ listed.2 = some u then
        LoadRecord.flagged u (t.load? kind u)
      else t.load? kind u := by
  unfold addListed
  cases h : listed.2 with
  | none => simp [load?_bindConnection, load?_flag]
  | some target =>
    simp only [load?_flag, load?_bindConnection]
    cases kind <;> simp [eq_comm]

theorem load?_completeContainer (atom : Uri) (connections : List (Uri × Option Uri)) :
    (t.completeContainer atom connections).2.load? kind u =
      if (t.completeContainer atom connections).1 = true ∧ Operation.Lists connections kind u then
        LoadRecord.flagged u ((t.complete .container atom none).2.load? kind u)
      else (t.complete .container atom none).2.load? kind u := by
  unfold completeContainer
  cases h : t.complete .container atom none with
  | mk accepted t' =>
    cases accepted with
    | false => simp
    | true =>
      have hlisted := load?_foldl t' kind u (fun t => t.load?_addListed kind u atom) connections
      by_cases hl : Operation.Lists connections kind u
      · rw [if_pos ⟨rfl, hl⟩]
        exact hlisted.trans (if_pos hl)
      · rw [if_neg fun h => hl h.2]
        exact hlisted.trans (if_neg hl)

theorem load_setDataSet (c : ConnectionRecord) (r : DataSetRecord) (d : DataSet) :
    (c.setDataSet r d).load = c.load := by
  cases d <;> rfl

theorem load?_setConnection_of_known {v : Uri} {c c' : ConnectionRecord}
    (hc : t.connections.get? v = some c) (h : c'.load = c.load) :
    (t.setConnection v c').load? kind u = t.load? kind u := by
  rw [load?_setConnection]
  split
  · rename_i e
    obtain ⟨rfl, rfl⟩ := e
    simp [load?, hc, h]
  · rfl

theorem load?_completePage (v : Uri) (messages : List Uri) (nextPage : Option String) :
    (t.completePage v messages nextPage).2.load? kind u = t.load? kind u := by
  unfold completePage
  split
  · rename_i c hc
    split
    · exact t.load?_setConnection_of_known kind u hc rfl
    · rfl
  · rfl

theorem load?_completeDataSet (v : Uri) (d : DataSet) :
    (t.completeDataSet v d).2.load? kind u = t.load? kind u := by
  unfold completeDataSet
  split
  · rename_i c hc
    split
    · exact t.load?_setConnection_of_known kind u hc (load_setDataSet ..)
    · rfl
  · rfl

theorem load?_failDataSet (v : Uri) (d : DataSet) :
    (t.failDataSet v d).2.load? kind u = t.load? kind u := by
  unfold failDataSet
  split
  · rename_i c hc
    simp only
    split
    · exact t.load?_setConnection_of_known kind u hc (load_setDataSet ..)
    · rfl
  · rfl

theorem load?_invalidatePetriNet (v : Uri) :
    (t.invalidatePetriNet v).load? kind u = t.load? kind u := by
  unfold invalidatePetriNet
  split
  · rename_i c hc
    exact t.load?_setConnection_of_known kind u hc rfl
  · rfl

/-! ## Edits of atoms -/

theorem load?_beginEdit (atom : Uri) :
    (t.beginEdit atom).load? kind u =
      if kind = .atom ∧ u = atom then LoadRecord.known (t.load? kind u) else t.load? kind u := by
  cases kind with
  | atom =>
    show ((t.atoms.upsert atom .fresh _).get? u).map (·.load) = _
    rw [UriMap.get?_upsert]
    by_cases h : u = atom
    · subst h
      simp only [if_true, and_self]
      show some (t.atoms.getD u .fresh).load = some (((t.atoms.get? u).map (·.load)).getD .fresh)
      rw [UriMap.getD]
      cases t.atoms.get? u <;> rfl
    · simp [h, load?]
  | container | connection | external => simp [beginEdit, load?, bump]

theorem load?_endEdit (atom : Uri) : (t.endEdit atom).load? kind u = t.load? kind u := by
  unfold endEdit
  split
  · cases kind with
    | atom =>
      show ((t.atoms.modify atom _).get? u).map (·.load) = (t.atoms.get? u).map (·.load)
      rw [UriMap.get?_modify]
      split
      · cases t.atoms.get? u <;> rfl
      · rfl
    | container | connection | external => rfl
  · rfl

end

end Tracker

/-! ## One change at a time -/

namespace LoadChange

variable {s : Step} {kind : ResourceKind} {u : Uri}

theorem known (hsubject : s.operation.subject = some (kind, u))
    (hword : s.pageWord? kind u = none) (l : Option LoadRecord) :
    LoadChange s kind u l (LoadRecord.known l) := by
  cases l with
  | none => exact .appeared hsubject
  | some l => exact .kept hword

theorem same {l l' : Option LoadRecord} (hword : s.pageWord? kind u = none) (h : l' = l) :
    LoadChange s kind u l l' :=
  h ▸ .kept hword

theorem flagged (hnames : s.Names kind u) (hword : s.pageWord? kind u = none)
    (l : Option LoadRecord) : LoadChange s kind u l (LoadRecord.flagged u l) := by
  unfold LoadRecord.flagged
  split
  · rename_i h
    rw [h.1]
    exact .named hnames h.2
  · exact .kept hword

end LoadChange

namespace Step

variable {s : Step} {kind : ResourceKind} {u : Uri}

theorem loadChange_setConnection {v : Uri} {c : ConnectionRecord}
    (hsubject : s.operation.subject = some (.connection, v))
    (hload : c.load = (s.before.connections.getD v .fresh).load)
    (hword : s.pageWord? kind u = none) :
    LoadChange s kind u (s.before.load? kind u) ((s.before.setConnection v c).load? kind u) := by
  rw [Tracker.load?_setConnection_of _ _ _ hload]
  split
  · rename_i e
    obtain ⟨rfl, rfl⟩ := e
    exact .known hsubject hword _
  · exact .kept hword

theorem loadChange_complete {kind' : ResourceKind} {v : Uri}
    (hsubject : s.operation.subject = some (kind', v)) (hword : s.pageWord? kind u = none)
    (status : Option FetchAnswer) :
    LoadChange s kind u (s.before.load? kind u)
      ((s.before.complete kind' v status).2.load? kind u) := by
  unfold Tracker.complete
  split
  · rename_i hloading
    obtain ⟨l, hl, hphase⟩ := Option.map_eq_some_iff.1 (of_decide_eq_true hloading)
    rw [Tracker.load?_bump, Tracker.load?_setLoad]
    split
    · rename_i e
      obtain ⟨rfl, rfl⟩ := e
      rw [hl]
      exact .landed hsubject hphase
    · exact .kept hword
  · exact .kept hword

theorem loadChange_removes {gone : ResourceKind → Uri → Bool}
    {r : List (ResourceKind × Uri) × Tracker} (h : s.before.Removes gone r)
    (hremoves : gone kind u = true → s.Removes kind u) (hword : s.pageWord? kind u = none) :
    LoadChange s kind u (s.before.load? kind u) (r.2.load? kind u) := by
  rw [h.load?]
  split
  · rename_i hgone
    exact .removed (hremoves hgone)
  · exact .kept hword

theorem loadChange_claim (t : Tracker) (kind' : ResourceKind) (v : Uri) :
    LoadChange ⟨t, .claim kind' v⟩ kind u (t.load? kind u) ((t.claim kind' v).2.load? kind u) := by
  unfold Tracker.claim
  split
  · exact .kept rfl
  · rename_i hidle
    rw [Tracker.load?_bump, Tracker.load?_setLoad]
    split
    · rename_i e
      obtain ⟨rfl, rfl⟩ := e
      exact .started rfl fun h => hidle (decide_eq_true h)
    · exact .kept rfl

theorem loadChange_fail (t : Tracker) (kind' : ResourceKind) (v : Uri) (status : FetchAnswer) :
    LoadChange ⟨t, .fail kind' v status⟩ kind u (t.load? kind u)
      ((t.fail kind' v status).2.load? kind u) := by
  by_cases hgone : status.saysGone = true ∧ kind' ≠ .external
  · obtain ⟨r, hr, hremoves⟩ := t.removes_fail hgone.2 v hgone.1
    rw [hr]
    exact loadChange_removes (s := ⟨t, .fail kind' v status⟩) hremoves
      (fun h => ⟨hgone.1, h⟩) rfl
  · have hkept : status.saysGone = false ∨ kind' = .external := by
      cases hs : status.saysGone with
      | false => exact Or.inl rfl
      | true => exact Or.inr (Classical.byContradiction fun hk => hgone ⟨hs, hk⟩)
    have hfail := t.fail_of_kept v hkept
    cases hloading : t.isIn .loading kind' v with
    | false =>
      rw [hfail, hloading]
      exact .kept rfl
    | true =>
      rw [hloading] at hfail
      have hanswer : (Step.mk t (.fail kind' v status)).answer = .failure .failed := by
        show Answer.failure (t.fail kind' v status).1 = _
        rw [hfail]
        rfl
      obtain ⟨l, hl, hphase⟩ := Option.map_eq_some_iff.1 (of_decide_eq_true hloading)
      rw [hfail, if_pos rfl, Tracker.load?_bump, Tracker.load?_setLoad]
      split
      · rename_i e
        obtain ⟨rfl, rfl⟩ := e
        rw [hl]
        exact .failed ⟨rfl, hanswer⟩ hphase
      · exact .kept rfl

/-- What a container lists is no container, so its record is not the one that is completed. -/
theorem ne_container_of_lists {connections : List (Uri × Option Uri)}
    (h : Operation.Lists connections kind u) : kind ≠ .container := by
  rintro rfl
  obtain ⟨_, -, ⟨h, -⟩ | ⟨h, -⟩⟩ := h <;> cases h

theorem loadChange_completeContainer (t : Tracker) (atom : Uri)
    (connections : List (Uri × Option Uri)) :
    LoadChange ⟨t, .completeContainer atom connections⟩ kind u (t.load? kind u)
      ((t.completeContainer atom connections).2.load? kind u) := by
  have hcomplete : LoadChange ⟨t, .completeContainer atom connections⟩ kind u (t.load? kind u)
      ((t.complete .container atom none).2.load? kind u) :=
    loadChange_complete (s := ⟨t, _⟩) rfl rfl none
  rw [Tracker.load?_completeContainer]
  split
  · rename_i h
    obtain ⟨haccepted, hlists⟩ := h
    rw [Tracker.load?_complete_of_ne _ _ (ne_container_of_lists hlists)]
    refine .flagged (Or.inr (Or.inr ⟨atom, connections, rfl, ?_, hlists⟩)) rfl _
    exact congrArg Answer.told haccepted
  · exact hcomplete

theorem loadChange_claimPage (t : Tracker) (v : Uri) :
    LoadChange ⟨t, .claimPage v⟩ kind u (t.load? kind u) ((t.claimPage v).2.load? kind u) := by
  have hanswer : (Step.mk t (.claimPage v)).answer = .claim (t.claimPage v).1 := rfl
  cases hloading : (t.connections.getD v .fresh).loadingMessages with
  | true =>
    have hclaim : t.claimPage v = (.alreadyLoading, t) := by simp [Tracker.claimPage, hloading]
    rw [hclaim] at hanswer ⊢
    exact .kept (by simp [pageWord?, hanswer])
  | false =>
    have hclaim : t.claimPage v = (.started, t.setConnection v
        { t.connections.getD v .fresh with
          loadingMessages := true
          load := { (t.connections.getD v .fresh).load with status := none } }) := by
      simp [Tracker.claimPage, hloading]
    rw [hclaim] at hanswer ⊢
    have hword : (Step.mk t (.claimPage v)).pageWord? kind u =
        if kind = .connection ∧ u = v then some none else none := by
      simp [pageWord?, hanswer]
    rw [Tracker.load?_setConnection]
    split
    · rename_i e
      rw [if_pos e] at hword
      obtain ⟨rfl, rfl⟩ := e
      rw [t.load_getD]
      exact .paged rfl hword
    · rename_i e
      exact .kept (hword.trans (if_neg e))

theorem loadChange_failPage (t : Tracker) (v : Uri) (messages : List Uri)
    (nextPage : Option String) (status : FetchAnswer) :
    LoadChange ⟨t, .failPage v messages nextPage status⟩ kind u (t.load? kind u)
      ((t.failPage v messages nextPage status).2.load? kind u) := by
  have hanswer : (Step.mk t (.failPage v messages nextPage status)).answer =
      .told (t.failPage v messages nextPage status).1 := rfl
  cases hidle : t.inFlight (.page v) with
  | false =>
    rw [Tracker.failPage_of_idle hidle] at hanswer ⊢
    exact .kept (by simp [pageWord?, hanswer])
  | true =>
    obtain ⟨c, hc, hloading⟩ := (Option.any_eq_true _ _).1 hidle
    have hfail : t.failPage v messages nextPage status = (true, t.setConnection v
        { c with
          loadingMessages := false
          nextPage := nextPage
          failedMessages := messages.foldl (fun f u => f.insert u status) c.failedMessages
          load := { c.load with status := some status } }) := by
      simp [Tracker.failPage, hc, hloading]
    rw [hfail] at hanswer ⊢
    have hword : (Step.mk t (.failPage v messages nextPage status)).pageWord? kind u =
        if kind = .connection ∧ u = v then some (some status) else none := by
      simp [pageWord?, hanswer]
    have hload : t.load? .connection v = some c.load := by simp [Tracker.load?, hc]
    rw [Tracker.load?_setConnection]
    split
    · rename_i e
      rw [if_pos e] at hword
      obtain ⟨rfl, rfl⟩ := e
      have hpaged : LoadChange ⟨t, .failPage u messages nextPage status⟩ .connection u
          (t.load? .connection u) _ := .paged rfl hword
      rwa [hload] at hpaged ⊢
    · rename_i e
      exact .kept (hword.trans (if_neg e))

/-- What a step does to the load record of a resource. -/
theorem loadChange (s : Step) (kind : ResourceKind) (u : Uri) :
    LoadChange s kind u (s.before.load? kind u) (s.after.load? kind u) := by
  obtain ⟨t, op⟩ := s
  cases op with
  | flag kind' v =>
    show LoadChange _ _ _ _ ((t.flag kind' v).2.load? kind u)
    rw [Tracker.load?_flag]
    split
    · rename_i e
      obtain ⟨rfl, rfl⟩ := e
      exact .flagged (Or.inl rfl) rfl _
    · exact .kept rfl
  | flagParticipants m =>
    show LoadChange _ _ _ _ ((t.flagParticipants m).load? kind u)
    rw [Tracker.load?_flagParticipants]
    split
    · rename_i h
      exact .flagged (Or.inr (Or.inl ⟨m, rfl, h⟩)) rfl _
    · exact .kept rfl
  | claim kind' v => exact loadChange_claim t kind' v
  | complete kind' v status => exact loadChange_complete (s := ⟨t, _⟩) rfl rfl status
  | completeContainer atom connections => exact loadChange_completeContainer t atom connections
  | fail kind' v status => exact loadChange_fail t kind' v status
  | forgetAtom atom => exact loadChange_removes (s := ⟨t, _⟩) (t.removes_forgetAtom atom) id rfl
  | forgetConnection v =>
    exact loadChange_removes (s := ⟨t, _⟩) (t.removes_forgetConnection v) id rfl
  | forgetAll =>
    have hnone : t.forgetAll.load? kind u = none := by cases kind <;> rfl
    show LoadChange _ _ _ _ (t.forgetAll.load? kind u)
    rw [hnone]
    exact .removed trivial
  | beginEdit atom =>
    show LoadChange _ _ _ _ ((t.beginEdit atom).load? kind u)
    rw [Tracker.load?_beginEdit]
    split
    · rename_i e
      obtain ⟨rfl, rfl⟩ := e
      exact .known rfl rfl _
    · exact .kept rfl
  | endEdit atom => exact .same rfl (t.load?_endEdit kind u atom)
  | claimPage v => exact loadChange_claimPage t v
  | failPage v messages nextPage status => exact loadChange_failPage t v messages nextPage status
  | assignOwner v atom => exact loadChange_setConnection (s := ⟨t, _⟩) rfl rfl rfl
  | claimDataSet v d =>
    show LoadChange _ _ _ _ ((t.claimDataSet v d).2.load? kind u)
    unfold Tracker.claimDataSet
    simp only
    split
    · exact .kept rfl
    · exact loadChange_setConnection (s := ⟨t, _⟩) rfl (Tracker.load_setDataSet ..) rfl
  | completePage v messages nextPage =>
    exact .same rfl (t.load?_completePage kind u v messages nextPage)
  | completeDataSet v d => exact .same rfl (t.load?_completeDataSet kind u v d)
  | failDataSet v d => exact .same rfl (t.load?_failDataSet kind u v d)
  | invalidatePetriNet v => exact .same rfl (t.load?_invalidatePetriNet kind u v)
  | limitFailures n => exact .same rfl (by cases kind <;> rfl)

/-- Everything that is named for loading is flagged. -/
theorem load?_of_names (h : s.Names kind u) :
    s.after.load? kind u = LoadRecord.flagged u (s.before.load? kind u) := by
  obtain ⟨t, op⟩ := s
  rcases h with hop | ⟨m, hop, hm⟩ | ⟨atom, connections, hop, hanswer, hlists⟩
  · obtain rfl : op = .flag kind u := hop
    exact (t.load?_flag kind u kind u).trans (if_pos ⟨rfl, rfl⟩)
  · obtain rfl : op = .flagParticipants m := hop
    exact (t.load?_flagParticipants kind u m).trans (if_pos hm)
  · obtain rfl : op = .completeContainer atom connections := hop
    have haccepted : (t.completeContainer atom connections).1 = true := Answer.told.inj hanswer
    have hlaw := (t.load?_completeContainer kind u atom connections).trans
      (if_pos ⟨haccepted, hlists⟩)
    rwa [Tracker.load?_complete_of_ne t u (ne_container_of_lists hlists)] at hlaw

end Step

end Parley.Loading
