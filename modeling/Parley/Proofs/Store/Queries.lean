/-
The queries of the backlinks are scans of the store. The sources of a message under a kind are the
stored messages that name it by its local name, and then those that name it by its remote name only,
each part in order of name; what points at a message is known without listing it; and the missing
references are those to identifiers that no stored message is known under, by kind and then by
identifier. Being a target and being a source are converse for stored messages, as long as each name
belongs to one of them.

None of it depends on the order in which the messages and the entries of the index are visited. An
index whose lists are sorted at the end is the same for every order, and so are the references that
are found missing and then sorted.
-/
import Parley.Agreement.Reconcile
import Parley.Proofs.Store.Backlinks
import Parley.Proofs.Store.Chronology

namespace Parley

/-! ## Sorting what comes in any order -/

/-- A list in order is what sorting makes of any arrangement of it. -/
theorem mergeSort_eq_of_perm {α : Type} {le : α → α → Bool}
    (htrans : ∀ a b c, le a b = true → le b c = true → le a c = true)
    (htotal : ∀ a b, (le a b || le b a) = true) {l sorted : List α} (h : l.Perm sorted)
    (hsorted : sorted.Pairwise fun a b => le a b = true)
    (hanti : ∀ a ∈ sorted, ∀ b ∈ sorted, le a b = true → le b a = true → a = b) :
    l.mergeSort le = sorted := by
  have hperm : (l.mergeSort le).Perm sorted := (List.mergeSort_perm l le).trans h
  refine List.Perm.eq_of_pairwise (fun a b ha hb hab hba => ?_)
    (List.pairwise_mergeSort htrans htotal l) hsorted hperm
  exact hanti a (hperm.subset ha) b hb hab hba

/-- Messages in strict order of name are what sorting by name makes of any arrangement of them. -/
theorem Message.byName_eq_of_perm {l sorted : List Message} (h : l.Perm sorted)
    (hsorted : sorted.Pairwise fun a b => a.uri < b.uri) : byName l = sorted := by
  have hle : sorted.Pairwise fun a b => (!decide (b.uri < a.uri)) = true :=
    hsorted.imp fun hab => by simpa using Uri.lt_asymm hab
  have hnames : (sorted.map (·.uri)).Nodup := by
    rw [List.Nodup, List.pairwise_map]
    exact hsorted.imp fun hab => Uri.ne_of_lt hab
  refine mergeSort_eq_of_perm (fun a b c hab hbc => ?_) (fun a b => ?_) h hle
    fun a ha b hb hab hba => ?_
  · simp only [Bool.not_eq_true', decide_eq_false_iff_not] at hab hbc ⊢
    exact Uri.not_lt_trans hab hbc
  · simpa using Uri.not_lt_total a.uri b.uri
  · simp only [Bool.not_eq_true', decide_eq_false_iff_not] at hab hba
    exact List.inj_on_of_nodup_map hnames ha hb (Uri.eq_of_not_lt hba hab)

/-! ## The order of references -/

/-- The place of a kind in wire order. -/
def ReferenceKind.rank (k : ReferenceKind) : Nat :=
  all.idxOf k

theorem ReferenceKind.rank_inj {j k : ReferenceKind} (h : j.rank = k.rank) : j = k :=
  (List.idxOf_inj (mem_all j)).1 h

namespace References

/-- The order of references: by kind, and by identifier within a kind. -/
def before (r r' : ReferenceKind × Uri) : Bool :=
  beforeByRank (r.1.rank, r.2) (r'.1.rank, r'.2)

theorem before_trans (a b c : ReferenceKind × Uri) (hab : before a b = true)
    (hbc : before b c = true) : before a c = true :=
  beforeByRank_trans hab hbc

theorem before_total (a b : ReferenceKind × Uri) : (before a b || before b a) = true :=
  beforeByRank_total _ _

theorem before_antisymm {a b : ReferenceKind × Uri} (hab : before a b = true)
    (hba : before b a = true) : a = b := by
  have heq := beforeByRank_antisymm hab hba
  exact Prod.ext (ReferenceKind.rank_inj (Prod.mk.inj heq).1) (Prod.mk.inj heq).2

end References

/-! ## Scans -/

namespace Store

/-- A list of the stored messages that pass a test, in order of name. -/
structure Scans (s : Store) (p : Message → Prop) (l : List Message) : Prop where
  mem_iff : ∀ m, m ∈ l ↔ m ∈ s.toList ∧ p m
  ordered : l.Pairwise fun a b => a.uri < b.uri

/-- No two stored messages share a name. -/
def UnsharedNames (s : Store) : Prop :=
  ∀ m ∈ s.toList, ∀ n ∈ s.toList, ∀ u, m.hasName u = true → n.hasName u = true → m = n

/-- It is enough to look at the names that the messages have. -/
theorem unsharedNames_iff {s : Store} : s.UnsharedNames ↔ ∀ m ∈ s.toList, ∀ n ∈ s.toList,
    (m.hasName n.uri = true ∨ ∃ r ∈ n.remoteUri, m.hasName r = true) → m = n := by
  constructor
  · rintro h m hm n hn (hu | ⟨r, hr, hu⟩)
    · exact h m hm n hn n.uri hu (Message.hasName_iff.2 (Or.inl rfl))
    · exact h m hm n hn r hu (Message.hasName_iff.2 (Or.inr hr))
  · intro h m hm n hn u hmu hnu
    rcases Message.hasName_iff.1 hnu with rfl | hr
    · exact h m hm n hn (Or.inl hmu)
    · exact h m hm n hn (Or.inr ⟨u, hr, hmu⟩)

instance (s : Store) : Decidable s.UnsharedNames :=
  decidable_of_iff' _ unsharedNames_iff

variable {s : Store}

/-- The stored messages are listed in order of name. -/
theorem Coherent.ordered_toList (hs : s.Coherent) :
    s.toList.Pairwise fun a b => a.uri < b.uri := by
  unfold toList UriMap.values
  rw [List.pairwise_map]
  refine s.messages.ascending.imp_of_mem fun {a b} ha hb hab => ?_
  rw [hs.ownName a.1 a.2 (UriMap.get?_eq_some_iff.2 ha),
    hs.ownName b.1 b.2 (UriMap.get?_eq_some_iff.2 hb)]
  exact hab

theorem Coherent.scans_filter (hs : s.Coherent) (p : Message → Bool) :
    s.Scans (fun m => p m = true) (s.toList.filter p) :=
  ⟨fun _ => List.mem_filter, hs.ordered_toList.filter p⟩

theorem Scans.nodup {p : Message → Prop} {l : List Message} (h : s.Scans p l) : l.Nodup :=
  h.ordered.imp fun hab e => Uri.ne_of_lt hab (congrArg Message.uri e)

end Store

namespace Backlinks

variable {s : Store}

/-! ## Sources and targets -/

/-- The sources are those that use the local name, and then the others. -/
theorem exists_scans_sources (hs : s.Coherent) (t : Message) (k : ReferenceKind) :
    ∃ named others, s.backlinks.sources t k = named ++ others ∧
      s.Scans (fun a => t.uri ∈ a.references.get k) named ∧
      s.Scans (fun a => a.RefersTo k t ∧ t.uri ∉ a.references.get k) others := by
  refine ⟨_, _, sources_eq hs t k, ?_, ?_⟩
  · have h := hs.scans_filter fun a => t.uri ∈ a.references.get k
    simp only [decide_eq_true_eq] at h
    exact h
  · have h := hs.scans_filter fun a => a.RefersTo k t ∧ t.uri ∉ a.references.get k
    simp only [decide_eq_true_eq] at h
    exact h

theorem nodup_sources (hs : s.Coherent) (t : Message) (k : ReferenceKind) :
    (s.backlinks.sources t k).Nodup := by
  obtain ⟨named, others, hsources, hnamed, hothers⟩ := exists_scans_sources hs t k
  rw [hsources, List.nodup_append]
  refine ⟨hnamed.nodup, hothers.nodup, ?_⟩
  rintro a ha b hb rfl
  exact ((hothers.mem_iff a).1 hb).2.2 ((hnamed.mem_iff a).1 ha).2

theorem hasSource_iff_sources_ne_nil (hs : s.Coherent) {t : Message} {k : ReferenceKind} :
    s.backlinks.hasSource t k = true ↔ s.backlinks.sources t k ≠ [] := by
  rw [hasSource_iff]
  constructor
  · rintro ⟨a, ha⟩
    exact List.ne_nil_of_mem ((mem_sources_iff hs).2 ha)
  · intro hne
    obtain ⟨a, ha⟩ := List.exists_mem_of_ne_nil _ hne
    exact ⟨a, (mem_sources_iff hs).1 ha⟩

theorem mem_targets_iff {a t : Message} {k : ReferenceKind} :
    t ∈ s.backlinks.targets a k ↔ ∃ u ∈ a.references.get k, s.find? u = some t :=
  List.mem_filterMap

/-- A target is stored, and what it is a target of is among its sources. -/
theorem source_of_target (hs : s.Coherent) {a t : Message} {k : ReferenceKind} (ha : a ∈ s.toList)
    (ht : t ∈ s.backlinks.targets a k) : t ∈ s.toList ∧ a ∈ s.backlinks.sources t k := by
  obtain ⟨u, hu, hfind⟩ := mem_targets_iff.1 ht
  obtain ⟨htmem, hname⟩ := hs.of_find? hfind
  exact ⟨htmem, (mem_sources_iff hs).2 ⟨ha, u, hu, hname⟩⟩

/-- Where names belong to one message only, a stored message is a target of its sources. -/
theorem target_of_source (hs : s.Coherent) (hnames : s.UnsharedNames) {a t : Message}
    {k : ReferenceKind} (ht : t ∈ s.toList) (ha : a ∈ s.backlinks.sources t k) :
    t ∈ s.backlinks.targets a k := by
  obtain ⟨-, u, hu, hname⟩ := (mem_sources_iff hs).1 ha
  obtain ⟨m, hm⟩ := Option.isSome_iff_exists.1 (hs.find?_isSome_iff.2 ⟨t, ht, hname⟩)
  obtain ⟨hmem, hmname⟩ := hs.of_find? hm
  rw [hnames m hmem t ht u hmname hname] at hm
  exact mem_targets_iff.2 ⟨u, hu, hm⟩

/-! ## Missing references -/

/-- The references of the index: its keys with their kinds. -/
def references (b : Backlinks) : List (ReferenceKind × Uri) :=
  ReferenceKind.all.flatMap fun k => (b.table.get k).keys.map fun u => (k, u)

/-- Those of the given references that lead nowhere, in order. -/
def missingAmong (b : Backlinks) (rs : List (ReferenceKind × Uri)) : List (ReferenceKind × Uri) :=
  (rs.filter fun r => !b.store.contains r.2).mergeSort References.before

theorem missing_eq_filter (b : Backlinks) :
    b.missing = b.references.filter fun r => !b.store.contains r.2 := by
  unfold missing references
  rw [List.filter_flatMap]
  congr 1
  funext k
  rw [List.filter_map]
  rfl

theorem mem_missing_iff (hs : s.Coherent) {k : ReferenceKind} {u : Uri} :
    (k, u) ∈ s.backlinks.missing ↔
      (∃ a ∈ s.toList, u ∈ a.references.get k) ∧ ∀ m ∈ s.toList, m.hasName u = false := by
  have hkey : (k, u) ∈ s.backlinks.references ↔ ∃ a ∈ s.toList, u ∈ a.references.get k := by
    rw [← contains_table_iff, UriMap.contains, Option.isSome_iff_exists, ← UriMap.mem_keys]
    simp [references]
  have hunknown : s.contains u = false ↔ ∀ m ∈ s.toList, m.hasName u = false := by
    rw [← Bool.not_eq_true, Store.contains, hs.find?_isSome_iff]
    simp
  rw [missing_eq_filter, List.mem_filter, hkey, Bool.not_eq_true']
  exact and_congr_right fun _ => hunknown

/-- The references are in order, and none is there twice. -/
theorem references_ordered (b : Backlinks) :
    b.references.Pairwise fun r r' => References.before r r' = true ∧ r ≠ r' := by
  unfold references
  rw [List.pairwise_flatMap]
  constructor
  · intro k _
    rw [List.pairwise_map, UriMap.keys, List.pairwise_map]
    refine (b.table.get k).ascending.imp fun {x y} hxy => ⟨?_, fun e => ?_⟩
    · exact beforeByRank_iff.2 (Or.inr ⟨rfl, Uri.lt_asymm hxy⟩)
    · exact Uri.ne_of_lt hxy (Prod.mk.inj e).2
  · -- a kind that is listed before another one has the lower rank
    refine List.Pairwise.imp (fun {j k} hjk => ?_)
      (by decide : ReferenceKind.all.Pairwise fun j k => j.rank < k.rank)
    intro r hj r' hk
    obtain ⟨u, -, rfl⟩ := List.mem_map.1 hj
    obtain ⟨v, -, rfl⟩ := List.mem_map.1 hk
    refine ⟨beforeByRank_iff.2 (Or.inl hjk), fun e => ?_⟩
    rw [(Prod.mk.inj e).1] at hjk
    exact Nat.lt_irrefl _ hjk

theorem missing_ordered (b : Backlinks) :
    b.missing.Pairwise fun r r' => References.before r r' = true ∧ r ≠ r' := by
  rw [missing_eq_filter]
  exact b.references_ordered.filter _

/-- In whatever order the references are found, the missing ones come out the same. -/
theorem missingAmong_eq_of_perm (b : Backlinks) {rs : List (ReferenceKind × Uri)}
    (h : rs.Perm b.references) : b.missingAmong rs = b.missing := by
  have hfound : (rs.filter fun r => !b.store.contains r.2).Perm b.missing := by
    rw [missing_eq_filter]
    exact h.filter _
  exact mergeSort_eq_of_perm References.before_trans References.before_total hfound
    (b.missing_ordered.imp And.left) fun _ _ _ _ => References.before_antisymm

/-! ## The order of visits -/

/-- The index when the messages of a store are visited in the order given, and each list is sorted
by name at the end. -/
def ofVisits (s : Store) (visits : List Message) : Backlinks where
  store := s
  table := (visits.foldl addMessage noReferences).map fun byTarget =>
    byTarget.mapValues fun _ ms => Message.byName ms

/-- In whatever order the messages are visited, the index comes out the same. -/
theorem ofVisits_eq_of_perm (hs : s.Coherent) {visits : List Message}
    (h : visits.Perm s.toList) : ofVisits s visits = s.backlinks := by
  have hsorted (k : ReferenceKind) (u : Uri) :
      Message.byName (holding visits k u) = holding s.toList k u :=
    Message.byName_eq_of_perm (h.filter _) (hs.ordered_toList.filter _)
  have hnil (k : ReferenceKind) (u : Uri) : holding visits k u = [] ↔ holding s.toList k u = [] := by
    have hperm : (holding visits k u).Perm (holding s.toList k u) := h.filter _
    constructor
    · intro e
      rw [e] at hperm
      exact hperm.nil_eq.symm
    · intro e
      rw [e] at hperm
      exact hperm.eq_nil
  have htable : (ofVisits s visits).table = s.backlinks.table := by
    refine ByKind.ext_get fun k => UriMap.ext_get? fun u => ?_
    have hnone : (noReferences.get k).get? u = none := by simp [noReferences]
    unfold ofVisits
    rw [ByKind.get_map, UriMap.get?_mapValues, get?_addMessages, get?_table, UriMap.getD, hnone]
    by_cases hu : holding visits k u = []
    · rw [if_pos hu, if_pos ((hnil k u).1 hu)]
      rfl
    · rw [if_neg hu, if_neg (mt (hnil k u).2 hu), ← hsorted]
      rfl
  show Backlinks.mk s (ofVisits s visits).table = Backlinks.mk s s.backlinks.table
  rw [htable]

/-! ## All queries -/

/-- The queries answer as scans of a store do. -/
structure AnswersByScan (b : Backlinks) (s : Store) : Prop where
  sources : ∀ t k, ∃ named others, b.sources t k = named ++ others ∧
    s.Scans (fun a => t.uri ∈ a.references.get k) named ∧
    s.Scans (fun a => a.RefersTo k t ∧ t.uri ∉ a.references.get k) others
  nodup : ∀ t k, (b.sources t k).Nodup
  hasSource : ∀ t k, b.hasSource t k = true ↔ b.sources t k ≠ []
  sourceOfTarget : ∀ a ∈ s.toList, ∀ t k, t ∈ b.targets a k → t ∈ s.toList ∧ a ∈ b.sources t k
  targetOfSource : s.UnsharedNames → ∀ a ∈ s.toList, ∀ t ∈ s.toList, ∀ k,
    a ∈ b.sources t k → t ∈ b.targets a k
  missing : ∀ k u, (k, u) ∈ b.missing ↔
    (∃ a ∈ s.toList, u ∈ a.references.get k) ∧ ∀ m ∈ s.toList, m.hasName u = false
  ordered : b.missing.Pairwise fun r r' => References.before r r' = true ∧ r ≠ r'

/-- In every store the queries answer as scans do, whatever the order in which the messages are
visited when the index is made, and its entries when it is read. -/
theorem queries_scan_store {s : Store} (hs : s.Reachable) :
    s.backlinks.AnswersByScan s ∧
    (∀ visits, visits.Perm s.toList → ofVisits s visits = s.backlinks) ∧
    ∀ rs, rs.Perm s.backlinks.references → s.backlinks.missingAmong rs = s.backlinks.missing := by
  have hc := hs.coherent
  refine ⟨?_, fun visits => ofVisits_eq_of_perm hc, fun rs => missingAmong_eq_of_perm _⟩
  constructor
  case sources => exact exists_scans_sources hc
  case nodup => exact nodup_sources hc
  case hasSource => exact fun t k => hasSource_iff_sources_ne_nil hc
  case sourceOfTarget => exact fun a ha t k ht => source_of_target hc ha ht
  case targetOfSource => exact fun hnames a _ t ht k => target_of_source hc hnames ht
  case missing => exact fun k u => mem_missing_iff hc
  case ordered => exact missing_ordered _

/-- A proposal known under two names. -/
def twiceNamed : Message :=
  { Message.chat ⟨"p"⟩ .outgoing .none with remoteUri := some ⟨"p2"⟩ }

/-- Three accepts of a proposal: one uses its remote name, one its local name, and one uses both and
accepts a message that has not arrived. -/
def acceptedTwice : Store :=
  .ofList
    [twiceNamed,
      .chat ⟨"b"⟩ .incoming (References.none.insert .accepts ⟨"p2"⟩),
      .chat ⟨"c"⟩ .incoming (References.none.insert .accepts ⟨"p"⟩),
      .chat ⟨"d"⟩ .incoming
        (((References.none.insert .accepts ⟨"p"⟩).insert .accepts ⟨"p2"⟩).insert .accepts ⟨"late"⟩)]

theorem queries_scan_store_acceptedTwice :
    acceptedTwice.Reachable ∧ acceptedTwice.UnsharedNames ∧
      ((acceptedTwice.backlinks.sources twiceNamed .accepts).map (·.uri) =
        [⟨"c"⟩, ⟨"d"⟩, ⟨"b"⟩]) ∧
      (∀ a ∈ acceptedTwice.backlinks.sources twiceNamed .accepts,
        twiceNamed ∈ acceptedTwice.backlinks.targets a .accepts) ∧
      (.accepts, ⟨"late"⟩) ∈ acceptedTwice.backlinks.missing ∧
      ofVisits acceptedTwice acceptedTwice.toList.reverse = acceptedTwice.backlinks := by
  have hs : acceptedTwice.Reachable := Store.reachable_ofList _
  have hnames : acceptedTwice.UnsharedNames := by decide
  have hp : twiceNamed ∈ acceptedTwice.toList := by decide
  obtain ⟨hscan, hvisits, -⟩ := queries_scan_store hs
  refine ⟨hs, hnames, by decide, fun a ha => ?_, ?_, hvisits _ (List.reverse_perm _)⟩
  · obtain ⟨named, others, hsources, hnamed, hothers⟩ := hscan.sources twiceNamed .accepts
    have hstored : a ∈ acceptedTwice.toList := by
      rw [hsources] at ha
      rcases List.mem_append.1 ha with ha | ha
      · exact ((hnamed.mem_iff a).1 ha).1
      · exact ((hothers.mem_iff a).1 ha).1
    exact hscan.targetOfSource hnames a hstored twiceNamed hp .accepts ha
  · exact (hscan.missing .accepts ⟨"late"⟩).2 (by decide)

/-- A proposal of a message that has not arrived. -/
def earlyProposal : Store :=
  .ofList [.chat ⟨"b"⟩ .incoming (References.none.insert .proposes ⟨"x"⟩)]

/-- A message that is not stored has a source and is not a target of it. -/
theorem source_without_target_earlyProposal :
    earlyProposal.Reachable ∧ earlyProposal.UnsharedNames ∧
      ∃ a ∈ earlyProposal.toList,
        a ∈ earlyProposal.backlinks.sources (.chat ⟨"x"⟩ .incoming .none) .proposes ∧
        .chat ⟨"x"⟩ .incoming .none ∉ earlyProposal.backlinks.targets a .proposes := by
  refine ⟨Store.reachable_ofList _, by decide, ?_⟩
  decide

end Backlinks

end Parley
