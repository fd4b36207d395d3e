/-
The index of the backlinks answers like a scan of the store: under a kind and an identifier it lists
exactly the stored messages whose references of the kind hold the identifier. So the sources of a
message under a kind are exactly the stored messages that refer to it under the kind, by either of
its names.

The index is a fold over the messages and over the references of each. A message has a reference
once, so it is appended once to the list of each identifier it holds, and folding over the messages
keeps each list equal to the scan of the messages folded so far.
-/
import Mathlib.Data.List.Nodup
import Parley.Proofs.Store.Reachable
import Parley.Store.Backlinks

namespace Parley

/-! ## Referring -/

/-- A message refers to another one under a kind if one of its references of the kind is a name of
the other. -/
def Message.RefersTo (a : Message) (k : ReferenceKind) (m : Message) : Prop :=
  ∃ u ∈ (a.references.get k).toList, m.hasName u = true

instance (a : Message) (k : ReferenceKind) (m : Message) : Decidable (a.RefersTo k m) :=
  inferInstanceAs (Decidable (∃ u ∈ (a.references.get k).toList, m.hasName u = true))

theorem Message.refersTo_iff {a m : Message} {k : ReferenceKind} :
    a.RefersTo k m ↔
      m.uri ∈ a.references.get k ∨ ∃ r, m.remoteUri = some r ∧ r ∈ a.references.get k := by
  unfold RefersTo
  constructor
  · rintro ⟨u, hu, hn⟩
    rcases hasName_iff.1 hn with rfl | hr
    · exact Or.inl hu
    · exact Or.inr ⟨u, hr, hu⟩
  · rintro (h | ⟨r, hr, h⟩)
    · exact ⟨m.uri, h, hasName_iff.2 (Or.inl rfl)⟩
    · exact ⟨r, h, hasName_iff.2 (Or.inr hr)⟩

theorem Message.RefersTo.has {a m : Message} {k : ReferenceKind} (h : a.RefersTo k m) :
    a.references.has k = true := by
  obtain ⟨u, hu, -⟩ := h
  unfold References.has UriSet.isEmpty
  rw [Bool.not_eq_true', List.isEmpty_eq_false_iff_exists_mem]
  exact ⟨u, hu⟩

theorem UriSet.toList_nodup (s : UriSet) : s.toList.Nodup :=
  s.ascending.imp fun h => Uri.ne_of_lt h

/-- A message has each reference once. -/
theorem References.pairs_nodup (refs : References) : refs.pairs.Nodup := by
  unfold pairs
  rw [List.nodup_flatMap]
  constructor
  · intro k _
    exact (UriSet.toList_nodup _).map fun u v h => (Prod.mk.inj h).2
  · refine List.Pairwise.imp (fun {j k} hjk => ?_) (by decide : ReferenceKind.all.Nodup)
    intro r hj hk
    obtain ⟨u, -, rfl⟩ := List.mem_map.1 hj
    obtain ⟨v, -, e⟩ := List.mem_map.1 hk
    exact hjk (Prod.mk.inj e).1.symm

namespace Backlinks

/-! ## The index is a scan -/

/-- The messages whose references of a kind hold an identifier, in the order given. -/
def holding (ms : List Message) (k : ReferenceKind) (u : Uri) : List Message :=
  ms.filter fun m => u ∈ m.references.get k

theorem mem_holding {ms : List Message} {k : ReferenceKind} {u : Uri} {m : Message} :
    m ∈ holding ms k u ↔ m ∈ ms ∧ u ∈ m.references.get k := by
  simp [holding]

theorem get?_addReference (m : Message) (t : ByKind (UriMap (List Message)))
    (r : ReferenceKind × Uri) (k : ReferenceKind) (u : Uri) :
    ((addReference m t r).get k).get? u =
      if r = (k, u) then some ((t.get k).getD u [] ++ [m]) else (t.get k).get? u := by
  obtain ⟨j, v⟩ := r
  unfold addReference
  rw [ByKind.get_modify]
  by_cases hk : k = j
  · subst hk
    by_cases hu : u = v
    · subst hu
      simp
    · simp [hu, Ne.symm hu]
  · simp [hk, Ne.symm hk]

theorem get?_addReferences (m : Message) (rs : List (ReferenceKind × Uri)) (hrs : rs.Nodup)
    (t : ByKind (UriMap (List Message))) (k : ReferenceKind) (u : Uri) :
    ((rs.foldl (addReference m) t).get k).get? u =
      if (k, u) ∈ rs then some ((t.get k).getD u [] ++ [m]) else (t.get k).get? u := by
  induction rs generalizing t with
  | nil => simp
  | cons r rs ih =>
    rw [List.nodup_cons] at hrs
    rw [List.foldl_cons, ih hrs.2]
    by_cases hr : r = (k, u)
    · subst hr
      rw [if_neg hrs.1, get?_addReference, if_pos rfl, if_pos List.mem_cons_self]
    · simp only [UriMap.getD, get?_addReference, if_neg hr, List.mem_cons, Ne.symm hr, false_or]

theorem get?_addMessage (t : ByKind (UriMap (List Message))) (m : Message) (k : ReferenceKind)
    (u : Uri) :
    ((addMessage t m).get k).get? u =
      if u ∈ m.references.get k then some ((t.get k).getD u [] ++ [m]) else (t.get k).get? u := by
  unfold addMessage
  rw [get?_addReferences m _ (References.pairs_nodup _)]
  simp only [References.mem_pairs]

/-- What an index has under a kind and an identifier after more messages are added to it. -/
theorem get?_addMessages (ms : List Message) (t : ByKind (UriMap (List Message)))
    (k : ReferenceKind) (u : Uri) :
    ((ms.foldl addMessage t).get k).get? u =
      if holding ms k u = [] then (t.get k).get? u
      else some ((t.get k).getD u [] ++ holding ms k u) := by
  induction ms generalizing t with
  | nil => simp [holding]
  | cons m ms ih =>
    rw [List.foldl_cons, ih]
    by_cases hm : u ∈ m.references.get k
    · have hcons : holding (m :: ms) k u = m :: holding ms k u := by simp [holding, hm]
      rw [hcons, if_neg (List.cons_ne_nil _ _)]
      by_cases hms : holding ms k u = []
      · simp [hms, get?_addMessage, hm]
      · simp [hms, UriMap.getD, get?_addMessage, hm]
    · have hcons : holding (m :: ms) k u = holding ms k u := by simp [holding, hm]
      rw [hcons]
      simp only [UriMap.getD, get?_addMessage, if_neg hm]

/-- The index of a store lists under a kind and an identifier the stored messages that hold it, and
has no entry if there is none. -/
theorem get?_table (s : Store) (k : ReferenceKind) (u : Uri) :
    (s.backlinks.table.get k).get? u =
      if holding s.toList k u = [] then none else some (holding s.toList k u) := by
  have hnone : (noReferences.get k).get? u = none := by simp [noReferences]
  have h := get?_addMessages s.toList noReferences k u
  rw [UriMap.getD, hnone] at h
  exact h

theorem getD_table (s : Store) (k : ReferenceKind) (u : Uri) :
    (s.backlinks.table.get k).getD u [] = holding s.toList k u := by
  rw [UriMap.getD, get?_table]
  split
  · rename_i h
    exact h.symm
  · rfl

theorem contains_table_iff {s : Store} {k : ReferenceKind} {u : Uri} :
    (s.backlinks.table.get k).contains u = true ↔ ∃ a ∈ s.toList, u ∈ a.references.get k := by
  rw [UriMap.contains, get?_table]
  by_cases h : holding s.toList k u = []
  · rw [if_pos h]
    constructor
    · intro h'
      cases h'
    · rintro ⟨a, ha, hu⟩
      have := mem_holding.2 ⟨ha, hu⟩
      rw [h] at this
      cases this
  · rw [if_neg h]
    obtain ⟨a, ha⟩ := List.exists_mem_of_ne_nil _ h
    exact ⟨fun _ => ⟨a, mem_holding.1 ha⟩, fun _ => rfl⟩

/-! ## Sources -/

/-- Something points at a message under a kind exactly if a stored message refers to it. -/
theorem hasSource_iff {s : Store} {m : Message} {k : ReferenceKind} :
    s.backlinks.hasSource m k = true ↔ ∃ a ∈ s.toList, a.RefersTo k m := by
  unfold hasSource
  simp only [Bool.or_eq_true, Option.any_eq_true, contains_table_iff, Message.refersTo_iff]
  constructor
  · rintro (⟨a, ha, hu⟩ | ⟨r, hr, a, ha, hu⟩)
    · exact ⟨a, ha, Or.inl hu⟩
    · exact ⟨a, ha, Or.inr ⟨r, hr, hu⟩⟩
  · rintro ⟨a, ha, hu | ⟨r, hr, hu⟩⟩
    · exact Or.inl ⟨a, ha, hu⟩
    · exact Or.inr ⟨r, hr, a, ha, hu⟩

/-- The sources of a message are the stored messages that use its local name, and then the others
that refer to it. -/
theorem sources_eq {s : Store} (hs : s.Coherent) (m : Message) (k : ReferenceKind) :
    s.backlinks.sources m k = holding s.toList k m.uri ++
      s.toList.filter fun a => a.RefersTo k m ∧ m.uri ∉ a.references.get k := by
  unfold sources
  simp only [getD_table]
  cases hr : m.remoteUri with
  | none =>
    have hothers : s.toList.filter (fun a => a.RefersTo k m ∧ m.uri ∉ a.references.get k) = [] := by
      rw [List.filter_eq_nil_iff]
      intro a _
      simp [Message.refersTo_iff, hr]
    rw [hothers, List.append_nil]
  | some r =>
    simp only
    congr 1
    unfold holding
    rw [List.filter_filter]
    refine List.filter_congr fun a ha => Bool.eq_iff_iff.2 ?_
    simp only [Bool.and_eq_true, List.all_eq_true, List.mem_filter, decide_eq_true_eq,
      Message.refersTo_iff, hr, Option.some.injEq, exists_eq_left']
    constructor
    · rintro ⟨hnone, hu⟩
      exact ⟨Or.inr hu, fun hl => hnone a ⟨ha, hl⟩ rfl⟩
    · rintro ⟨hu, hl⟩
      refine ⟨?_, hu.resolve_left hl⟩
      -- a message of the same name that uses the local name would be the message itself
      rintro b ⟨hb, hbl⟩ e
      rw [hs.eq_of_uri_eq hb ha e] at hbl
      exact hl hbl

/-- The sources of a message under a kind are exactly the stored messages that refer to it. -/
theorem mem_sources_iff {s : Store} (hs : s.Coherent) {a m : Message} {k : ReferenceKind} :
    a ∈ s.backlinks.sources m k ↔ a ∈ s.toList ∧ a.RefersTo k m := by
  rw [sources_eq hs, List.mem_append, mem_holding, List.mem_filter, decide_eq_true_eq]
  constructor
  · rintro (⟨ha, hu⟩ | ⟨ha, hr, -⟩)
    · exact ⟨ha, Message.refersTo_iff.2 (Or.inl hu)⟩
    · exact ⟨ha, hr⟩
  · rintro ⟨ha, hr⟩
    by_cases hl : m.uri ∈ a.references.get k
    · exact Or.inl ⟨ha, hl⟩
    · exact Or.inr ⟨ha, hr, hl⟩

end Backlinks

end Parley
