/-
Versions tell changes. The store of a connection and the load records count their changes, and whoever
keeps something computed from them compares versions to see whether it is out of date. Main
statement: in a run of operations the version never falls, and two points of the run with the same
version have the same contents; and admitting a message answers that nothing changed exactly if
nothing did.

What carries this is one relation between an earlier and a later state: either nothing was counted
and nothing was changed, or the version has grown. It holds across each operation, and it composes.
-/
import Parley.Proofs.Loading.OneFetch
import Parley.Proofs.Session.Novelty
import Parley.Proofs.Store.Operations

namespace Parley

open Loading

/-! ## Counted changes -/

/-- Between an earlier and a later state nothing was counted and the contents are the same, or
something was counted. -/
inductive Counted {σ κ : Type} (version : σ → Nat) (contents : σ → κ) (s t : σ) : Prop
  | nothing (idle : version t = version s) (same : contents t = contents s)
  | something (grown : version s < version t)

namespace Counted

section

variable {σ κ ι : Type} {version : σ → Nat} {contents : σ → κ} {s t r : σ}

theorem refl (s : σ) : Counted version contents s s :=
  .nothing rfl rfl

/-- A step that leaves the state as it is unless it counts. -/
theorem of_eq_or_lt (h : t = s ∨ version s < version t) : Counted version contents s t := by
  rcases h with rfl | hlt
  · exact refl t
  · exact .something hlt

theorem le (h : Counted version contents s t) : version s ≤ version t := by
  cases h with
  | nothing idle same => omega
  | something grown => omega

/-- An unchanged version vouches for the contents. -/
theorem same_of_idle (h : Counted version contents s t) (idle : version t = version s) :
    contents t = contents s := by
  cases h with
  | nothing _ same => exact same
  | something grown => omega

theorem trans (h : Counted version contents s t) (h' : Counted version contents t r) :
    Counted version contents s r := by
  have hle := h.le
  have hle' := h'.le
  rcases Nat.lt_or_ge (version s) (version r) with hlt | hge
  · exact .something hlt
  · have idle : version t = version s := by omega
    have idle' : version r = version t := by omega
    exact .nothing (idle'.trans idle) ((h'.same_of_idle idle').trans (h.same_of_idle idle))

variable {step : σ → ι → σ}

/-- What holds across each step holds across a run. -/
theorem foldl (h : ∀ s op, Counted version contents s (step s op)) (s : σ) (ops : List ι) :
    Counted version contents s (ops.foldl step s) := by
  induction ops generalizing s with
  | nil => exact refl s
  | cons op ops ih => exact (h s op).trans (ih (step s op))

/-- It holds between any two points of a run, the earlier one first. -/
theorem foldl_take (h : ∀ s op, Counted version contents s (step s op)) (s : σ) (ops : List ι)
    {i j : Nat} (hij : i ≤ j) :
    Counted version contents ((ops.take i).foldl step s) ((ops.take j).foldl step s) := by
  obtain ⟨k, rfl⟩ := Nat.exists_eq_add_of_le hij
  rw [List.take_add, List.foldl_append]
  exact foldl h _ _

/-- Two points of a run with the same version have the same contents, whichever comes first. -/
theorem foldl_same (h : ∀ s op, Counted version contents s (step s op)) (s : σ) (ops : List ι)
    {i j : Nat}
    (idle : version ((ops.take i).foldl step s) = version ((ops.take j).foldl step s)) :
    contents ((ops.take i).foldl step s) = contents ((ops.take j).foldl step s) := by
  rcases Nat.le_total i j with hij | hji
  · exact ((foldl_take h s ops hij).same_of_idle idle.symm).symm
  · exact (foldl_take h s ops hji).same_of_idle idle

end

end Counted

/-! ## The message store -/

namespace Store

/-- What the version of a store vouches for. -/
def contents (s : Store) : UriMap Message × UriMap Uri :=
  (s.messages, s.remoteIndex)

theorem edit_grows (s : Store) (u : Uri) (f : Message → Message) :
    (s.edit u f).2 = s ∨ s.version < (s.edit u f).2.version := by
  unfold edit
  split
  · exact Or.inr (Nat.lt_succ_self s.version)
  · exact Or.inl rfl

theorem perform_grows (s : Store) (op : Operation) :
    s.perform op = s ∨ s.version < (s.perform op).version := by
  cases op with
  | insert m => exact insert_grows s m
  | extend ms => exact foldl_grows insert_grows ms s
  | acknowledge u remote => exact edit_grows s u _
  | confirmDelivery u => exact edit_grows s u _
  | recordFailure u => exact edit_grows s u _
  | clearUnread u => exact edit_grows s u _

theorem counted_perform (s : Store) (op : Operation) :
    Counted version contents s (s.perform op) :=
  .of_eq_or_lt (perform_grows s op)

/-- Admitting a message answers that nothing changed exactly if the store has it and the copy tells
nothing new. -/
theorem insert_eq_unchanged_iff {s : Store} {m : Message} :
    (s.insert m).1 = .unchanged ↔ s.Has m := by
  cases hm : s.get? m.uri with
  | none =>
    rw [insert_of_unused hm]
    refine iff_of_false (by simp) ?_
    rintro ⟨stored, hs, -⟩
    rw [hm] at hs
    cases hs
  | some stored =>
    by_cases hsame : stored.merge m = stored
    · rw [insert_of_merge_eq hm hsame]
      exact iff_of_true rfl ⟨stored, hm, hsame⟩
    · rw [insert_of_merge_ne hm hsame]
      refine iff_of_false (by simp) ?_
      rintro ⟨stored', hs, hsame'⟩
      rw [hm] at hs
      cases hs
      exact hsame hsame'

theorem version_insert_eq_iff {s : Store} {m : Message} :
    (s.insert m).2.version = s.version ↔ s.Has m := by
  constructor
  · intro idle
    by_cases h : s.Has m
    · exact h
    · have hlt := version_lt_insert h
      omega
  · intro h
    rw [insert_of_has h]

/-- A message that the store does not have, or a copy that tells something new, is seen by looking
it up. -/
theorem messages_insert_eq_iff {s : Store} {m : Message} :
    (s.insert m).2.messages = s.messages ↔ s.Has m := by
  constructor
  · intro same
    have hget : (s.insert m).2.get? m.uri = s.get? m.uri := by
      unfold get?
      rw [same]
    rw [get?_insert, if_pos rfl] at hget
    cases hm : s.get? m.uri with
    | none =>
      rw [hm] at hget
      cases hget
    | some stored =>
      rw [hm] at hget
      exact ⟨stored, hm, Option.some.inj hget⟩
  · intro h
    rw [insert_of_has h]

/-- Admitting a message answers that nothing changed exactly if the version is the same, and exactly
if the contents are. -/
theorem insert_eq_unchanged_iff_same (s : Store) (m : Message) :
    ((s.insert m).1 = .unchanged ↔ (s.insert m).2.version = s.version) ∧
    ((s.insert m).1 = .unchanged ↔
      (s.insert m).2.messages = s.messages ∧ (s.insert m).2.remoteIndex = s.remoteIndex) := by
  refine ⟨insert_eq_unchanged_iff.trans version_insert_eq_iff.symm, ?_⟩
  rw [insert_eq_unchanged_iff]
  constructor
  · intro h
    rw [insert_of_has h]
    exact ⟨rfl, rfl⟩
  · intro same
    exact messages_insert_eq_iff.1 same.1

end Store

/-! ## The load records -/

namespace Loading.Tracker

/-- What the version of the load records vouches for. -/
def contents (t : Tracker) :
    UriMap AtomRecord × UriMap LoadRecord × UriMap ConnectionRecord × UriMap LoadRecord :=
  (t.atoms, t.containers, t.connections, t.external)

section

variable (t : Tracker)

theorem version_lt_setLoad (kind : ResourceKind) (u : Uri) (l : LoadRecord) :
    t.version < (t.setLoad kind u l).bump.version := by
  cases kind <;> exact Nat.lt_succ_self t.version

theorem claim_grows (kind : ResourceKind) (u : Uri) :
    (t.claim kind u).2 = t ∨ t.version < (t.claim kind u).2.version := by
  unfold claim
  split
  · exact Or.inl rfl
  · exact Or.inr (t.version_lt_setLoad kind u _)

/-- An accepted completion counts, and any other changes nothing. -/
theorem complete_cases (kind : ResourceKind) (u : Uri) (status : Option FetchAnswer) :
    t.complete kind u status = (false, t) ∨
      ∃ t', t.complete kind u status = (true, t') ∧ t.version < t'.version := by
  unfold complete
  split
  · exact Or.inr ⟨_, rfl, t.version_lt_setLoad kind u _⟩
  · exact Or.inl rfl

theorem complete_grows (kind : ResourceKind) (u : Uri) (status : Option FetchAnswer) :
    (t.complete kind u status).2 = t ∨ t.version < (t.complete kind u status).2.version := by
  rcases t.complete_cases kind u status with h | ⟨t', h, hlt⟩
  · rw [h]
    exact Or.inl rfl
  · rw [h]
    exact Or.inr hlt

theorem fail_grows (kind : ResourceKind) (u : Uri) (status : FetchAnswer) :
    (t.fail kind u status).2 = t ∨ t.version < (t.fail kind u status).2.version := by
  unfold fail
  split
  · -- a deletion counts, whether or not there was a record
    refine Or.inr ?_
    by_cases hk : kind = .connection
    · rw [if_pos hk]
      exact Nat.lt_succ_self t.version
    · rw [if_neg hk]
      exact Nat.lt_succ_self t.version
  · split
    · exact Or.inr (t.version_lt_setLoad kind u _)
    · exact Or.inl rfl

theorem endEdit_grows (u : Uri) : t.endEdit u = t ∨ t.version < (t.endEdit u).version := by
  unfold endEdit
  split
  · exact Or.inr (Nat.lt_succ_self t.version)
  · exact Or.inl rfl

theorem flagParticipants_grows (m : Message) :
    t.flagParticipants m = t ∨ t.version < (t.flagParticipants m).version := by
  unfold flagParticipants
  split
  · exact Or.inl rfl
  · exact foldl_grows (flag_grows .atom) _ t

/-- Flags and bindings never take back a count. -/
theorem allowsFlags_version_le : AllowsFlags fun t t' => t.version ≤ t'.version where
  refl t := Nat.le_refl t.version
  trans h h' := Nat.le_trans h h'
  flag t kind u := by
    rcases flag_grows kind t u with h | hlt
    · exact Nat.le_of_eq (congrArg version h).symm
    · exact Nat.le_of_lt hlt

/-- The bindings to the atom count for nothing, but the completion before them has counted. -/
theorem completeContainer_grows (atom : Uri) (connections : List (Uri × Option Uri)) :
    (t.completeContainer atom connections).2 = t ∨
      t.version < (t.completeContainer atom connections).2.version := by
  unfold completeContainer
  rcases t.complete_cases .container atom none with h | ⟨t', h, hlt⟩
  · rw [h]
    exact Or.inl rfl
  · rw [h]
    have hlisted := allowsFlags_version_le.addListed atom
      (fun listed (_ : listed ∈ connections) t => Nat.le_refl (t.bindConnection listed.1 atom).version)
      t'
    exact Or.inr (Nat.lt_of_lt_of_le hlt hlisted)

theorem claimPage_grows (u : Uri) :
    (t.claimPage u).2 = t ∨ t.version < (t.claimPage u).2.version := by
  unfold claimPage
  simp only
  split
  · exact Or.inl rfl
  · exact Or.inr (Nat.lt_succ_self t.version)

theorem claimDataSet_grows (u : Uri) (s : DataSet) :
    (t.claimDataSet u s).2 = t ∨ t.version < (t.claimDataSet u s).2.version := by
  unfold claimDataSet
  simp only
  split
  · exact Or.inl rfl
  · exact Or.inr (Nat.lt_succ_self t.version)

theorem invalidatePetriNet_grows (u : Uri) :
    t.invalidatePetriNet u = t ∨ t.version < (t.invalidatePetriNet u).version := by
  unfold invalidatePetriNet
  split
  · exact Or.inr (Nat.lt_succ_self t.version)
  · exact Or.inl rfl

theorem counted_perform (op : Operation) :
    Counted version contents t (t.perform op).2 := by
  cases op with
  | flag kind u => exact .of_eq_or_lt (flag_grows kind t u)
  | claim kind u => exact .of_eq_or_lt (t.claim_grows kind u)
  | complete kind u status => exact .of_eq_or_lt (t.complete_grows kind u status)
  | fail kind u status => exact .of_eq_or_lt (t.fail_grows kind u status)
  | forgetAtom atom => exact .something (Nat.lt_succ_self t.version)
  | forgetConnection u => exact .something (Nat.lt_succ_self t.version)
  | forgetAll => exact .something (Nat.lt_succ_self t.version)
  | beginEdit atom => exact .something (Nat.lt_succ_self t.version)
  | endEdit atom => exact .of_eq_or_lt (t.endEdit_grows atom)
  | flagParticipants m => exact .of_eq_or_lt (t.flagParticipants_grows m)
  | completeContainer atom connections =>
    exact .of_eq_or_lt (t.completeContainer_grows atom connections)
  | assignOwner u atom => exact .something (Nat.lt_succ_self t.version)
  | claimPage u => exact .of_eq_or_lt (t.claimPage_grows u)
  | claimDataSet u s => exact .of_eq_or_lt (t.claimDataSet_grows u s)
  | invalidatePetriNet u => exact .of_eq_or_lt (t.invalidatePetriNet_grows u)
  -- a report on a page or a data set sets the record of the connection if it is accepted
  | completePage | failPage | completeDataSet | failDataSet =>
    refine .of_eq_or_lt ?_
    simp only [perform, completePage, failPage, completeDataSet, failDataSet]
    split
    · split
      · exact Or.inr (Nat.lt_succ_self t.version)
      · exact Or.inl rfl
    · exact Or.inl rfl
  -- the number of failures allowed is no record
  | limitFailures n => exact .nothing rfl rfl

end

end Loading.Tracker

/-! ## Runs -/

/-- In every run of operations on a store, and in every run of operations on load records, the
version never falls, and points of the run with the same version have the same contents; and
admitting a message to a store answers that nothing changed exactly if neither the version nor the
contents change. -/
theorem versions_tell_changes :
    (∀ (s : Store) (ops : List Store.Operation) (i j : Nat),
      (i ≤ j → (s.performAll (ops.take i)).version ≤ (s.performAll (ops.take j)).version) ∧
      ((s.performAll (ops.take i)).version = (s.performAll (ops.take j)).version →
        (s.performAll (ops.take i)).messages = (s.performAll (ops.take j)).messages ∧
        (s.performAll (ops.take i)).remoteIndex = (s.performAll (ops.take j)).remoteIndex)) ∧
    (∀ (t : Tracker) (ops : List Loading.Operation) (i j : Nat),
      (i ≤ j → (t.performAll (ops.take i)).version ≤ (t.performAll (ops.take j)).version) ∧
      ((t.performAll (ops.take i)).version = (t.performAll (ops.take j)).version →
        (t.performAll (ops.take i)).atoms = (t.performAll (ops.take j)).atoms ∧
        (t.performAll (ops.take i)).containers = (t.performAll (ops.take j)).containers ∧
        (t.performAll (ops.take i)).connections = (t.performAll (ops.take j)).connections ∧
        (t.performAll (ops.take i)).external = (t.performAll (ops.take j)).external)) ∧
    (∀ (s : Store) (m : Message),
      ((s.insert m).1 = .unchanged ↔ (s.insert m).2.version = s.version) ∧
      ((s.insert m).1 = .unchanged ↔
        (s.insert m).2.messages = s.messages ∧ (s.insert m).2.remoteIndex = s.remoteIndex)) := by
  refine ⟨fun s ops i j => ⟨fun hij => ?_, fun idle => ?_⟩,
    fun t ops i j => ⟨fun hij => ?_, fun idle => ?_⟩, Store.insert_eq_unchanged_iff_same⟩
  · exact (Counted.foldl_take Store.counted_perform s ops hij).le
  · have same := Counted.foldl_same Store.counted_perform s ops idle
    exact Prod.mk.inj same
  · exact (Counted.foldl_take Tracker.counted_perform t ops hij).le
  · have same := Counted.foldl_same Tracker.counted_perform t ops idle
    obtain ⟨hatoms, hrest⟩ := Prod.mk.inj same
    obtain ⟨hcontainers, hrest⟩ := Prod.mk.inj hrest
    exact ⟨hatoms, hcontainers, Prod.mk.inj hrest⟩

/-- A message comes, and comes again, and is read. -/
def repeatedMessage : List Store.Operation :=
  [.insert (.chat ⟨"a"⟩ .incoming .none), .extend [.chat ⟨"a"⟩ .incoming .none],
    .clearUnread ⟨"a"⟩]

/-- A list of connections is fetched, and reported a second time. -/
def repeatedReport : List Loading.Operation :=
  [.claim .container ⟨"a"⟩, .completeContainer ⟨"a"⟩ [(⟨"c"⟩, none)],
    .completeContainer ⟨"a"⟩ [(⟨"d"⟩, none)]]

theorem versions_tell_changes_repeated :
    let store (i : Nat) := Store.empty.performAll (repeatedMessage.take i)
    let records (i : Nat) := (Tracker.empty 3).performAll (repeatedReport.take i)
    ((store 1).version = 1 ∧ (store 2).version = 1 ∧ (store 1).version ≤ (store 3).version ∧
      (store 1).messages = (store 2).messages) ∧
    ((records 2).version = 3 ∧ (records 3).version = 3 ∧
      (records 1).version ≤ (records 3).version ∧
      (records 2).connections = (records 3).connections) := by
  obtain ⟨hstore, hrecords, -⟩ := versions_tell_changes
  intro store records
  have hsame := (hstore Store.empty repeatedMessage 1 2).2 (by decide)
  have hsame' := (hrecords (Tracker.empty 3) repeatedReport 2 3).2 (by decide)
  exact ⟨⟨by decide, by decide, (hstore _ repeatedMessage 1 3).1 (by decide), hsame.1⟩,
    by decide, by decide, (hrecords _ repeatedReport 1 3).1 (by decide), hsame'.2.2.1⟩

end Parley
