/-
The chronological order of messages: by date, and by name within a date, as identifiers are ordered
that have a rank each. It is a linear order on messages with different names, so a list of them has
one arrangement in order, whatever order they came in. The messages of a store have different names,
each under its own.
-/
import Mathlib.Data.List.Nodup
import Parley.Store.Basic

namespace Parley

/-! ## Ranked identifiers -/

/-- The order of ranked identifiers: by rank, and by identifier within a rank. -/
def beforeByRank (a b : Nat × Uri) : Bool :=
  a.1 < b.1 || (a.1 = b.1 && !decide (b.2 < a.2))

theorem beforeByRank_iff {a b : Nat × Uri} :
    beforeByRank a b = true ↔ a.1 < b.1 ∨ a.1 = b.1 ∧ ¬ b.2 < a.2 := by
  simp [beforeByRank]

theorem beforeByRank_trans {a b c : Nat × Uri} (hab : beforeByRank a b = true)
    (hbc : beforeByRank b c = true) : beforeByRank a c = true := by
  rw [beforeByRank_iff] at hab hbc ⊢
  rcases hab with hab | ⟨eab, hab⟩
  · exact Or.inl (by omega)
  · rcases hbc with hbc | ⟨ebc, hbc⟩
    · exact Or.inl (by omega)
    · exact Or.inr ⟨eab.trans ebc, Uri.not_lt_trans hab hbc⟩

theorem beforeByRank_total (a b : Nat × Uri) : (beforeByRank a b || beforeByRank b a) = true := by
  rw [Bool.or_eq_true, beforeByRank_iff, beforeByRank_iff]
  rcases Nat.lt_trichotomy a.1 b.1 with h | h | h
  · exact Or.inl (Or.inl h)
  · rcases Uri.not_lt_total a.2 b.2 with h' | h'
    · exact Or.inl (Or.inr ⟨h, h'⟩)
    · exact Or.inr (Or.inr ⟨h.symm, h'⟩)
  · exact Or.inr (Or.inl h)

theorem beforeByRank_antisymm {a b : Nat × Uri} (hab : beforeByRank a b = true)
    (hba : beforeByRank b a = true) : a = b := by
  rw [beforeByRank_iff] at hab hba
  have hrank : a.1 = b.1 := by omega
  have hle : ¬ b.2 < a.2 := by
    rcases hab with hab | hab
    · omega
    · exact hab.2
  have hle' : ¬ a.2 < b.2 := by
    rcases hba with hba | hba
    · omega
    · exact hba.2
  exact Prod.ext hrank (Uri.eq_of_not_lt hle' hle)

/-! ## Chronological order -/

namespace Message

theorem before_eq (a b : Message) : a.before b = beforeByRank (a.date, a.uri) (b.date, b.uri) :=
  rfl

theorem before_trans {a b c : Message} (h : a.before b = true) (h' : b.before c = true) :
    a.before c = true := by
  rw [before_eq] at h h' ⊢
  exact beforeByRank_trans h h'

theorem before_total (a b : Message) : (a.before b || b.before a) = true :=
  beforeByRank_total (a.date, a.uri) (b.date, b.uri)

theorem uri_eq_of_before {a b : Message} (h : a.before b = true) (h' : b.before a = true) :
    a.uri = b.uri := by
  rw [before_eq] at h h'
  exact congrArg Prod.snd (beforeByRank_antisymm h h')

theorem chronological_perm (ms : List Message) : (chronological ms).Perm ms :=
  List.mergeSort_perm ms before

theorem chronological_pairwise (ms : List Message) :
    (chronological ms).Pairwise fun a b => a.before b = true :=
  @List.pairwise_mergeSort _ before (fun _ _ _ => before_trans) before_total ms

/-- Messages have one arrangement in order, if those of one name are the same. -/
theorem eq_of_pairwise_before {l l' : List Message} (h : l.Perm l')
    (hl : ∀ a ∈ l, ∀ b ∈ l, a.uri = b.uri → a = b)
    (hs : l.Pairwise fun a b => a.before b = true)
    (hs' : l'.Pairwise fun a b => a.before b = true) : l = l' := by
  refine List.Perm.eq_of_pairwise (fun a b ha hb hab hba => ?_) hs hs' h
  exact hl a ha b (h.symm.subset hb) (uri_eq_of_before hab hba)

/-- An arrangement of messages in order is their chronological one, if those of one name are the
same. -/
theorem chronological_eq_of_copies {l l' : List Message} (h : l.Perm l')
    (hl : ∀ a ∈ l, ∀ b ∈ l, a.uri = b.uri → a = b)
    (hs : l'.Pairwise fun a b => a.before b = true) : chronological l = l' := by
  have hperm := chronological_perm l
  refine eq_of_pairwise_before (hperm.trans h) (fun a ha b hb => ?_) (chronological_pairwise l) hs
  exact hl a (hperm.subset ha) b (hperm.subset hb)

/-- An arrangement of messages with different names in order is their chronological one. -/
theorem chronological_eq_of_perm {l l' : List Message} (h : l.Perm l') (hl : (l.map (·.uri)).Nodup)
    (hs : l'.Pairwise fun a b => a.before b = true) : chronological l = l' :=
  chronological_eq_of_copies h (fun _ ha _ hb => List.inj_on_of_nodup_map hl ha hb) hs

/-- The order of arrival makes no difference to the chronological one. -/
theorem chronological_congr {l l' : List Message} (h : l.Perm l') (hl : (l.map (·.uri)).Nodup) :
    chronological l = chronological l' :=
  chronological_eq_of_perm (h.trans (chronological_perm l').symm) hl (chronological_pairwise l')

/-- A change that keeps names and dates makes no difference to the order. -/
theorem chronological_map (f : Message → Message) (huri : ∀ m, (f m).uri = m.uri)
    (hdate : ∀ m, (f m).date = m.date) (ms : List Message) :
    (chronological ms).map f = chronological (ms.map f) := by
  refine List.map_mergeSort fun a _ b _ => ?_
  unfold before
  rw [huri, huri, hdate, hdate]

end Message

theorem UriMap.nodup_keys {α : Type} (m : UriMap α) : m.keys.Nodup :=
  m.keys_ascending.imp fun h => Uri.ne_of_lt h

/-- A store that has each message under its own name has no two of one name. -/
theorem Store.nodup_toList {s : Store} (h : ∀ u m, s.get? u = some m → m.uri = u) :
    (s.toList.map (·.uri)).Nodup := by
  have hkeys : s.toList.map (·.uri) = s.messages.keys := by
    unfold toList UriMap.values UriMap.keys
    rw [List.map_map]
    exact List.map_congr_left fun e he => h e.1 e.2 (UriMap.get?_eq_some_iff.2 he)
  rw [hkeys]
  exact s.messages.nodup_keys

end Parley
