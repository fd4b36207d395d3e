/-
Reconciling once more. A reconciliation that resolved every entry has found a message under every
name that it looked up. Once the client has taken in the events that were asked for, the store alone
has the same messages under the same names, so a second reconciliation takes the same way from every
entry, asks for nothing but the sets and comes to the same view.

Taking in messages may change what a store answers: under a remote name it answers with the message
that was indexed last. So the remote names have to differ.
-/
import Parley.Proofs.Agreement.Settlement
import Parley.Proofs.Agreement.Transparency
import Parley.Proofs.Session.Moves
import Parley.Proofs.Store.Chronology
import Parley.Proofs.Store.Reachable

namespace Parley

/-! ## Taking in messages without changing an answer -/

/-- No two of the messages have one remote name. -/
def Message.RemoteNamesDiffer (ms : List Message) : Prop :=
  ∀ m ∈ ms, ∀ n ∈ ms, ∀ r, m.remoteUri = some r → n.remoteUri = some r → m = n

namespace Store

/-- Messages that a store has nothing under the names of, and whose names are all different. -/
structure LacksAll (s : Store) (ms : List Message) : Prop where
  distinct : (ms.map (·.uri)).Nodup
  unknown : ∀ m ∈ ms, s.find? m.uri = none
  remote : Message.RemoteNamesDiffer (s.toList ++ ms)

variable {s : Store} {ms : List Message}

theorem get?_of_find?_eq_none {u : Uri} (h : s.find? u = none) : s.get? u = none :=
  (Option.or_eq_none_iff.1 h).1

namespace LacksAll

theorem mem_insertAll_iff (h : s.LacksAll ms) {m : Message} :
    m ∈ (s.insertAll ms).toList ↔ m ∈ s.toList ++ ms := by
  rw [Store.mem_insertAll_iff h.distinct fun n hn => get?_of_find?_eq_none (h.unknown n hn),
    List.mem_append, or_comm]

/-- What the store answered it still answers. -/
theorem find?_of_find? (h : s.LacksAll ms) (hs : s.Reachable) {u : Uri} {m : Message}
    (hm : s.find? u = some m) : (s.insertAll ms).find? u = some m := by
  have hall := (hs.insertAll ms).coherent
  obtain ⟨hmem, hname⟩ := hs.coherent.of_find? hm
  have hmem' := h.mem_insertAll_iff.2 (List.mem_append_left ms hmem)
  rcases Message.hasName_iff.1 hname with rfl | hremote
  · exact hall.find?_uri hmem'
  · obtain ⟨n, hn⟩ := Option.isSome_iff_exists.1 (hall.find?_isSome_iff.2 ⟨m, hmem', hname⟩)
    obtain ⟨hnmem, hnname⟩ := hall.of_find? hn
    have hnmem := h.mem_insertAll_iff.1 hnmem
    rw [hn]
    rcases Message.hasName_iff.1 hnname with rfl | hnremote
    · -- a message of that local name is stored already, and there it wins
      rcases List.mem_append.1 hnmem with hold | hnew
      · exact (hs.coherent.find?_uri hold).symm.trans hm
      · cases (h.unknown n hnew).symm.trans hm
    · rw [h.remote n hnmem m (List.mem_append_left ms hmem) u hnremote hremote]

theorem find?_of_mem (h : s.LacksAll ms) (hs : s.Reachable) {m : Message} (hm : m ∈ ms) :
    (s.insertAll ms).find? m.uri = some m :=
  (hs.insertAll ms).coherent.find?_uri (h.mem_insertAll_iff.2 (List.mem_append_right _ hm))

end LacksAll

end Store

/-! ## What a resolution asks for -/

namespace Resolver

/-- What asking makes of the events asked for before: they are kept, and each new one stands under
its own name, under which the store has nothing. -/
structure Asks (r : Resolver) (cache cache' : UriMap Message) : Prop where
  kept : ∀ u m, cache.get? u = some m → cache'.get? u = some m
  new : ∀ u m, cache'.get? u = some m →
    cache.get? u = some m ∨ m.uri = u ∧ r.store.find? u = none

variable {r : Resolver} {cache cache' : UriMap Message}

theorem Asks.refl (r : Resolver) (cache : UriMap Message) : r.Asks cache cache :=
  ⟨fun _ _ h => h, fun _ _ => Or.inl⟩

theorem Asks.trans {cache'' : UriMap Message} (h : r.Asks cache cache')
    (h' : r.Asks cache' cache'') : r.Asks cache cache'' := by
  refine ⟨fun u m hm => h'.kept u m (h.kept u m hm), fun u m hm => ?_⟩
  rcases h'.new u m hm with hold | hnew
  · exact h.new u m hold
  · exact Or.inr hnew

theorem Asks.insert {u : Uri} {m : Message} (hstore : r.store.find? u = none)
    (hcache : cache.get? u = none) (hm : m.uri = u) : r.Asks cache (cache.insert u m) := by
  refine ⟨fun v n hn => ?_, fun v n hn => ?_⟩
  · have hne : v ≠ u := by
      rintro rfl
      rw [hcache] at hn
      cases hn
    rw [UriMap.get?_insert, if_neg hne]
    exact hn
  · rw [UriMap.get?_insert] at hn
    split at hn
    · rename_i e
      cases hn
      subst e
      exact Or.inr ⟨hm, hstore⟩
    · exact Or.inl hn

theorem found_insert {u : Uri} (hstore : r.store.find? u = none) (m : Message) :
    (r.store.find? u).or ((cache.insert u m).get? u) = some m := by
  rw [hstore, Option.none_or, UriMap.get?_insert, if_pos rfl]

/-- The source answers for a name with a message of that name, if at all. -/
def AnswersByName (source : Inquiry.Source) (ownAtom : Uri) : Prop :=
  ∀ u m, source (.event ownAtom u) = .ok m → m.uri = u

section

variable {source : Inquiry.Source} (hsource : AnswersByName source r.ownAtom)
include hsource

/-- A look-up that succeeds finds in the store or among the events asked for. -/
theorem asks_lookUp (u : Uri) (cache : UriMap Message) :
    r.Asks cache ((r.lookUp u cache).run source).2 ∧
      ∀ m, ((r.lookUp u cache).run source).1 = .ok m →
        (r.store.find? u).or (((r.lookUp u cache).run source).2.get? u) = some m := by
  cases r.looksUp source u cache with
  | found m hm hrun _ =>
    rw [hrun]
    refine ⟨.refl r cache, fun n hn => ?_⟩
    cases hn
    exact hm
  | failed e _ _ hrun _ =>
    rw [hrun]
    refine ⟨.refl r cache, fun n hn => ?_⟩
    cases hn
  | learnt m hmissing hm hrun _ =>
    obtain ⟨hstore, hcache⟩ := Option.or_eq_none_iff.1 hmissing
    rw [hrun]
    refine ⟨.insert hstore hcache (hsource u m hm), fun n hn => ?_⟩
    cases hn
    exact found_insert hstore m

theorem asks_follow (start : Uri) (steps : Nat) : ∀ (head : Option Uri) (u : Uri)
    (visited : List Uri) (cache : UriMap Message),
      r.Asks cache ((r.follow start steps head u visited cache).run source).2 := by
  induction steps with
  | zero =>
    intro head u visited cache
    exact .refl r cache
  | succ steps ih =>
    intro head u visited cache
    have hasks := (asks_lookUp hsource u cache).1
    unfold follow
    split
    · exact .refl r cache
    · rw [Inquiry.run_bind]
      generalize (r.lookUp u cache).run source = found at hasks ⊢
      obtain ⟨result, cache₁⟩ := found
      cases result with
      | error e => exact hasks
      | ok m =>
        simp only
        cases m.nextCopy? r.ownAtom with
        | none => exact hasks
        | some v => exact hasks.trans (ih _ v _ cache₁)

theorem asks_resolveAll (us : List Uri) : ∀ f : Findings,
    r.Asks f.cache ((r.resolveAll us f).run source).cache := by
  induction us with
  | nil => exact fun f => .refl r f.cache
  | cons u us ih =>
    intro f
    have hasks := asks_follow hsource u r.maxDepth none u [] f.cache
    unfold resolveAll resolve
    rw [Inquiry.run_bind]
    generalize (r.follow u r.maxDepth none u [] f.cache).run source = outcome at hasks ⊢
    obtain ⟨result, cache'⟩ := outcome
    cases result with
    | error e => exact hasks.trans (ih (f.record u (.error e, cache')))
    | ok ends => exact hasks.trans (ih (f.record u (.ok ends, cache')))

end

/-! ## Resolving again, with a store that has what was found -/

/-- A store that has under each name what the resolver found there, in its store or by asking. -/
def Retains (r : Resolver) (cache : UriMap Message) (s : Store) : Prop :=
  ∀ u m, (r.store.find? u).or (cache.get? u) = some m → s.find? u = some m

theorem Retains.of_asks {s : Store} (h : r.Retains cache' s) (hasks : r.Asks cache cache') :
    r.Retains cache s := by
  intro u m hm
  refine h u m ?_
  cases hstore : r.store.find? u with
  | some n =>
    rw [hstore] at hm
    exact hm
  | none =>
    rw [hstore, Option.none_or] at hm
    exact hasks.kept u m hm

section

variable {source : Inquiry.Source} (hsource : AnswersByName source r.ownAtom) {s : Store}
include hsource

/-- A chain that was followed to its end is followed again without a question. -/
theorem follow_again (start : Uri) (steps : Nat) : ∀ {head : Option Uri} {u : Uri}
    {visited : List Uri} {cache cache' : UriMap Message} {ends : ChainEnds},
      (r.follow start steps head u visited cache).run source = (.ok ends, cache') →
        r.Retains cache' s → ∀ c,
          { r with store := s }.follow start steps head u visited c = .done (.ok ends, c) := by
  -- on the steps left: both runs are at the same name and have visited the same names
  induction steps with
  | zero =>
    intro head u visited cache cache' ends h
    cases h
  | succ steps ih =>
    intro head u visited cache cache' ends h hs c
    obtain ⟨hasks, hfound⟩ := asks_lookUp hsource u cache
    unfold follow at h ⊢
    by_cases hvisited : u ∈ visited
    · rw [if_pos hvisited] at h
      cases h
    · rw [if_neg hvisited, Inquiry.run_bind] at h
      rw [if_neg hvisited]
      generalize (r.lookUp u cache).run source = found at h hasks hfound
      obtain ⟨result, cache₁⟩ := found
      cases result with
      | error e => cases h
      | ok m =>
        -- the second look-up finds the message in the store
        have hlookUp (hs : r.Retains cache₁ s) :
            { r with store := s }.lookUp u c = .done (.ok m, c) := by
          have hm : s.find? u = some m := hs u m (hfound m rfl)
          unfold lookUp
          simp only [hm, Option.some_or]
        simp only at h
        cases hnext : m.nextCopy? r.ownAtom with
        | none =>
          rw [hnext] at h
          cases h
          rw [hlookUp hs]
          simp only [Inquiry.bind, hnext]
        | some v =>
          rw [hnext] at h
          have hrest := asks_follow hsource start steps (head.or (some m.uri)) v (u :: visited) cache₁
          simp only at h
          rw [h] at hrest
          rw [hlookUp (hs.of_asks hrest)]
          simp only [Inquiry.bind, hnext]
          exact ih h hs c

omit hsource in
theorem failures_resolveAll (us : List Uri) : ∀ {f : Findings} {u : Uri},
    f.failures.contains u = true →
      ((r.resolveAll us f).run source).failures.contains u = true := by
  induction us with
  | nil =>
    intro f u h
    exact h
  | cons v us ih =>
    intro f u h
    unfold resolveAll
    rw [Inquiry.run_bind]
    refine ih ?_
    generalize (r.resolve v f.cache).run source = outcome
    obtain ⟨result, cache'⟩ := outcome
    cases result <;> simp [Findings.record, h]

/-- Entries that were all resolved are all resolved again, without a question. -/
theorem resolveAll_again (us : List Uri) : ∀ {f f' : Findings},
    (r.resolveAll us f).run source = f' → f'.failures = ∅ → r.Retains f'.cache s → ∀ c,
      { r with store := s }.resolveAll us { f with cache := c } =
        .done { f' with cache := c } := by
  induction us with
  | nil =>
    intro f f' h _ _ c
    cases h
    rfl
  | cons u us ih =>
    intro f f' h hfailures hs c
    have hagain := @follow_again _ _ hsource s u r.maxDepth none u [] f.cache
    unfold resolveAll at h ⊢
    rw [Inquiry.run_bind] at h
    unfold resolve at h ⊢
    generalize (r.follow u r.maxDepth none u [] f.cache).run source = outcome at h hagain
    obtain ⟨result, cache₁⟩ := outcome
    cases result with
    | error e =>
      -- a failure would have stayed
      have hfailed : ((r.resolveAll us (f.record u (.error e, cache₁))).run
          source).failures.contains u = true :=
        failures_resolveAll us (by simp [Findings.record])
      rw [h, hfailures] at hfailed
      cases hfailed
    | ok ends =>
      have hasks := asks_resolveAll hsource us (f.record u (.ok ends, cache₁))
      rw [h] at hasks
      rw [hagain rfl (hs.of_asks hasks) c]
      exact ih h hfailures hs c

end

end Resolver

/-! ## Reconciling again -/

section

variable {connection ownAtom : Uri} {store : Store} {maxDepth : Nat}
  {previous : Option AgreementView} {source : Inquiry.Source} {rec : Reconciliation}

/-- A reconciliation that succeeds makes its result of the sets and of what it found out. -/
theorem ofFindings_of_reconciled
    (hrec : (reconcile connection ownAtom store maxDepth previous).run source = .ok rec) :
    ∃ sets : ServerSets, source (.sets connection) = .ok sets ∧ rec = .ofFindings sets
      (((Resolver.mk ownAtom store (max maxDepth 1)).resolveAll sets.view.openEntries .none).run
        source) previous := by
  cases hsets : source (.sets connection) with
  | error e =>
    unfold reconcile at hrec
    simp only [Inquiry.run, hsets] at hrec
    cases hrec
  | ok sets =>
    cases (run_reconcile hsets ownAtom store maxDepth previous).1.symm.trans hrec
    exact ⟨sets, rfl, rfl⟩

theorem Message.mem_byName {ms : List Message} {m : Message} : m ∈ Message.byName ms ↔ m ∈ ms :=
  List.mem_mergeSort

/-- The events asked for have different names, and the store has nothing under them. -/
theorem lacksAll_fetched {r : Resolver} {cache : UriMap Message} (hasks : r.Asks ∅ cache)
    (hremote : Message.RemoteNamesDiffer (r.store.toList ++ Message.byName cache.values)) :
    r.store.LacksAll (Message.byName cache.values) := by
  have hnew {u : Uri} {m : Message} (hm : cache.get? u = some m) :
      m.uri = u ∧ r.store.find? u = none := by
    rcases hasks.new u m hm with hempty | hnew
    · cases hempty
    · exact hnew
  refine ⟨?_, fun m hm => ?_, hremote⟩
  · have hnames : cache.values.map (·.uri) = cache.keys := by
      unfold UriMap.values UriMap.keys
      rw [List.map_map]
      refine List.map_congr_left fun e he => ?_
      exact (hnew (UriMap.get?_eq_some_iff.2 he)).1
    have hperm : (Message.byName cache.values).Perm cache.values := List.mergeSort_perm _ _
    rw [(hperm.map _).nodup_iff, hnames]
    exact cache.nodup_keys
  · obtain ⟨u, hu⟩ := UriMap.mem_values.1 (Message.mem_byName.1 hm)
    obtain ⟨rfl, hunknown⟩ := hnew hu
    exact hunknown

/-- A store that takes in the events asked for retains everything that was found. -/
theorem retains_insertAll {r : Resolver} {cache : UriMap Message} (hstore : r.store.Reachable)
    (hasks : r.Asks ∅ cache)
    (hremote : Message.RemoteNamesDiffer (r.store.toList ++ Message.byName cache.values)) :
    r.Retains cache (r.store.insertAll (Message.byName cache.values)) := by
  have hlacks := lacksAll_fetched hasks hremote
  intro u m hm
  rcases Option.or_eq_some_iff.1 hm with hfound | ⟨-, hasked⟩
  · exact hlacks.find?_of_find? hstore hfound
  · rcases hasks.new u m hasked with hempty | ⟨rfl, -⟩
    · cases hempty
    · exact hlacks.find?_of_mem hstore
        (Message.mem_byName.2 (UriMap.mem_values.2 ⟨m.uri, hasked⟩))

/-- The same findings without a question make the same view again, which is no change. -/
theorem ofFindings_again (sets : ServerSets) (f : Resolver.Findings)
    (previous : Option AgreementView) :
    Reconciliation.ofFindings sets { f with cache := ∅ }
        (some (Reconciliation.ofFindings sets f previous).view) =
      { Reconciliation.ofFindings sets f previous with fetched := [], changed := false } := by
  have hfetched : Message.byName (∅ : UriMap Message).values = [] := List.mergeSort_nil
  have hchanged (v : AgreementView) :
      (some v).all (fun p => p.digest ≠ v.digest) = false := by simp
  unfold Reconciliation.ofFindings
  simp only [hfetched, hchanged]

/-- A reconciliation without failures is idempotent: with the store that has taken in the events it
asked for, and its view as the view before, a second one asks only for the sets and comes to the
same view, without failures and without a change. The client takes in these events, and keeps that
view, when it hears of the reconciliation. -/
theorem reconcile_again (hstore : store.Reachable)
    (hsource : Resolver.AnswersByName source ownAtom)
    (hrec : (reconcile connection ownAtom store maxDepth previous).run source = .ok rec)
    (hfailures : rec.failures = ∅)
    (hremote : Message.RemoteNamesDiffer (store.toList ++ rec.fetched)) :
    let again := reconcile connection ownAtom (store.insertAll rec.fetched) maxDepth (some rec.view)
    again.run source = .ok { rec with fetched := [], changed := false } ∧
    again.questions source = [.sets connection] ∧
    ∀ (s : Session) (c : Connection), s.connections.get? connection = some c → c.store = store →
      ∃ c', (s.apply (.agreementReconciled connection rec.view rec.fetched)).connections.get?
          connection = some c' ∧
        c'.store = store.insertAll rec.fetched ∧ c'.agreement = some rec.view := by
  obtain ⟨sets, hsets, rfl⟩ := ofFindings_of_reconciled hrec
  let r : Resolver := ⟨ownAtom, store, max maxDepth 1⟩
  let f : Resolver.Findings := (r.resolveAll sets.view.openEntries .none).run source
  let store' : Store := store.insertAll (Message.byName f.cache.values)
  have hasks : r.Asks ∅ f.cache :=
    Resolver.asks_resolveAll (r := r) hsource sets.view.openEntries .none
  have hagain : (Resolver.mk ownAtom store' (max maxDepth 1)).resolveAll sets.view.openEntries
      .none = .done { f with cache := ∅ } :=
    Resolver.resolveAll_again hsource sets.view.openEntries rfl hfailures
      (retains_insertAll hstore hasks hremote) ∅
  have hrun : (reconcile connection ownAtom store' maxDepth
      (some (Reconciliation.ofFindings sets f previous).view)).runAfter (fun _ => source) [] =
        (.ok (.ofFindings sets { f with cache := ∅ }
          (some (Reconciliation.ofFindings sets f previous).view)), [.sets connection]) := by
    rw [runAfter_reconcile hsets, hagain]
    rfl
  rw [Inquiry.runAfter_constant, Prod.mk.injEq, ofFindings_again] at hrun
  refine ⟨hrun.1, hrun.2, ?_⟩
  rintro s c hc rfl
  rw [s.get?_apply_of_addressee rfl, if_pos rfl, hc]
  exact ⟨_, rfl, rfl, rfl⟩

end

/-- A source that has an agreement and both of its copies. -/
def agreedCopies : Inquiry.Source
  | .sets _ => .ok { ServerSets.empty with agreementUris := .ofList [⟨"mine"⟩] }
  | .event requester u => Resolver.bothCopies (.event requester u)

theorem reconcile_again_agreedCopies :
    ∃ rec : Reconciliation,
      (reconcile ⟨"c"⟩ ⟨"own"⟩ .empty 8 none).run agreedCopies = .ok rec ∧
        rec.view.refs.get? ⟨"mine"⟩ = some ⟨⟨"mine"⟩, ⟨"theirs"⟩⟩ ∧
        (∀ m, m ∈ rec.fetched ↔ m = Resolver.ownCopy ∨ m = Resolver.counterpart) ∧
        (reconcile ⟨"c"⟩ ⟨"own"⟩ (Store.empty.insertAll rec.fetched) 8 (some rec.view)).run
          agreedCopies = .ok { rec with fetched := [], changed := false } := by
  have hcopies (m : Message) : m ∈ Message.byName [Resolver.ownCopy, Resolver.counterpart] ↔
      m = Resolver.ownCopy ∨ m = Resolver.counterpart := by
    simp [Message.mem_byName]
  obtain ⟨rec, hrec, hfailures, hrefs, hfetched⟩ : ∃ rec : Reconciliation,
      (reconcile ⟨"c"⟩ ⟨"own"⟩ .empty 8 none).run agreedCopies = .ok rec ∧ rec.failures = ∅ ∧
        rec.view.refs.get? ⟨"mine"⟩ = some ⟨⟨"mine"⟩, ⟨"theirs"⟩⟩ ∧
        ∀ m, m ∈ rec.fetched ↔ m = Resolver.ownCopy ∨ m = Resolver.counterpart :=
    ⟨_, rfl, rfl, rfl, hcopies⟩
  have hsource : Resolver.AnswersByName agreedCopies ⟨"own"⟩ := Resolver.bothCopies_named
  refine ⟨rec, hrec, hrefs, hfetched, (reconcile_again .empty hsource hrec hfailures ?_).1⟩
  -- only one of the two has a remote name
  intro m hm n hn r hmr hnr
  rcases (hfetched m).1 hm with rfl | rfl
  · rcases (hfetched n).1 hn with rfl | rfl
    · rfl
    · cases hnr
  · cases hmr

end Parley
