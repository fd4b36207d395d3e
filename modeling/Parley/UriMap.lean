/-
Finite maps from identifiers, kept as their entries in ascending order of key, so that maps with the
same look-ups are equal values. Main statements: one look-up law per operation, and extensionality.
-/
import Parley.Uri

namespace Parley

/-- A finite map from identifiers: its entries in ascending order of key, each key once. -/
structure UriMap (α : Type) where
  entries : List (Uri × α)
  ascending : entries.Pairwise fun a b => a.1 < b.1

namespace UriMap

variable {α β : Type}

instance [DecidableEq α] : DecidableEq (UriMap α) := fun m n =>
  decidable_of_iff (m.entries = n.entries) (by
    cases m; cases n; simp)

/-- The value of the first entry with the key. -/
def find (u : Uri) : List (Uri × α) → Option α
  | [] => none
  | (v, x) :: r => if u = v then some x else find u r

/-- Insertion into ascending entries, replacing the value of a present key. -/
def insertInto (u : Uri) (x : α) : List (Uri × α) → List (Uri × α)
  | [] => [(u, x)]
  | (v, y) :: r =>
    if u < v then (u, x) :: (v, y) :: r
    else if v < u then (v, y) :: insertInto u x r
    else (u, x) :: r

theorem key_mem_insertInto {u : Uri} {x : α} {e : Uri × α} {l : List (Uri × α)}
    (h : e ∈ insertInto u x l) : e = (u, x) ∨ e ∈ l := by
  induction l with
  | nil => exact Or.inl (List.mem_singleton.1 h)
  | cons d r ih =>
    obtain ⟨v, y⟩ := d
    unfold insertInto at h
    split at h
    · exact List.mem_cons.1 h
    · split at h
      · rcases List.mem_cons.1 h with h | h
        · exact Or.inr (h ▸ List.mem_cons_self)
        · exact (ih h).imp_right (List.mem_cons_of_mem _)
      · exact (List.mem_cons.1 h).imp_right (List.mem_cons_of_mem _)

theorem insertInto_ascending {u : Uri} {x : α} {l : List (Uri × α)}
    (h : l.Pairwise fun a b => a.1 < b.1) :
    (insertInto u x l).Pairwise fun a b => a.1 < b.1 := by
  induction l with
  | nil => simp [insertInto]
  | cons d r ih =>
    obtain ⟨v, y⟩ := d
    rw [List.pairwise_cons] at h
    unfold insertInto
    split
    · rename_i huv
      rw [List.pairwise_cons, List.pairwise_cons]
      refine ⟨fun e he => ?_, h.1, h.2⟩
      rcases List.mem_cons.1 he with rfl | he
      · exact huv
      · exact Uri.lt_trans huv (h.1 e he)
    · split
      · rename_i hvu
        rw [List.pairwise_cons]
        refine ⟨fun e he => ?_, ih h.2⟩
        rcases key_mem_insertInto he with rfl | he
        · exact hvu
        · exact h.1 e he
      · rename_i h1 h2
        rw [Uri.eq_of_not_lt h1 h2, List.pairwise_cons]
        exact ⟨fun e he => h.1 e he, h.2⟩

/-- The map without entries. -/
def empty : UriMap α := ⟨[], List.Pairwise.nil⟩

instance : Inhabited (UriMap α) := ⟨empty⟩

instance : EmptyCollection (UriMap α) := ⟨empty⟩

/-- The value of a key. -/
def get? (m : UriMap α) (u : Uri) : Option α :=
  find u m.entries

/-- Whether the key has a value. -/
def contains (m : UriMap α) (u : Uri) : Bool :=
  (m.get? u).isSome

/-- The value of a key, or a default. -/
def getD (m : UriMap α) (u : Uri) (d : α) : α :=
  (m.get? u).getD d

/-- The map with the key's value set. -/
def insert (m : UriMap α) (u : Uri) (x : α) : UriMap α :=
  ⟨insertInto u x m.entries, insertInto_ascending m.ascending⟩

/-- The entries that pass a test. -/
def filter (p : Uri → α → Bool) (m : UriMap α) : UriMap α :=
  ⟨m.entries.filter fun e => p e.1 e.2, m.ascending.filter _⟩

/-- The map without the key. -/
def erase (m : UriMap α) (u : Uri) : UriMap α :=
  m.filter fun v _ => v ≠ u

/-- The map with every value replaced. -/
def mapValues (f : Uri → α → β) (m : UriMap α) : UriMap β :=
  ⟨m.entries.map fun e => (e.1, f e.1 e.2), by
    rw [List.pairwise_map]
    exact m.ascending⟩

/-- The map with the key's value replaced, if it has one. -/
def modify (m : UriMap α) (u : Uri) (f : α → α) : UriMap α :=
  m.mapValues fun v x => if v = u then f x else x

/-- The map with the key's value replaced, starting from a default if it has none. -/
def upsert (m : UriMap α) (u : Uri) (d : α) (f : α → α) : UriMap α :=
  m.insert u (f (m.getD u d))

/-- The keys in ascending order. -/
def keys (m : UriMap α) : List Uri :=
  m.entries.map (·.1)

/-- The values in ascending order of key. -/
def values (m : UriMap α) : List α :=
  m.entries.map (·.2)

/-- The number of entries. -/
def size (m : UriMap α) : Nat :=
  m.entries.length

/-- No entry at all. -/
def isEmpty (m : UriMap α) : Bool :=
  m.entries.isEmpty

/-- The map of a list of entries, where a later entry replaces an earlier one of its key. -/
def ofList (es : List (Uri × α)) : UriMap α :=
  es.foldl (fun m e => m.insert e.1 e.2) empty

/-! ## Look-up -/

theorem find_eq_some_iff {u : Uri} {x : α} {l : List (Uri × α)}
    (h : l.Pairwise fun a b => a.1 < b.1) : find u l = some x ↔ (u, x) ∈ l := by
  induction l with
  | nil => simp [find]
  | cons d r ih =>
    obtain ⟨v, y⟩ := d
    rw [List.pairwise_cons] at h
    unfold find
    split
    · rename_i e
      subst e
      simp only [Option.some.injEq, List.mem_cons, Prod.mk.injEq, true_and]
      constructor
      · exact fun e => Or.inl e.symm
      · rintro (e | e)
        · exact e.symm
        · exact absurd (h.1 _ e) (Uri.lt_irrefl u)
    · rename_i hne
      rw [ih h.2, List.mem_cons]
      simp [hne]

/-- Looking up finds exactly the entries. -/
theorem get?_eq_some_iff {m : UriMap α} {u : Uri} {x : α} :
    m.get? u = some x ↔ (u, x) ∈ m.entries :=
  find_eq_some_iff m.ascending

@[simp] theorem get?_empty (u : Uri) : (∅ : UriMap α).get? u = none := rfl

theorem find_insertInto {u v : Uri} {x : α} {l : List (Uri × α)} :
    find v (insertInto u x l) = if v = u then some x else find v l := by
  induction l with
  | nil => simp [insertInto, find]
  | cons d r ih =>
    obtain ⟨w, y⟩ := d
    unfold insertInto
    split
    · simp [find]
    · split
      · rename_i hwu
        simp only [find, ih]
        split
        · rename_i e
          subst e
          rw [if_neg (Uri.ne_of_lt hwu)]
        · rfl
      · rename_i h1 h2
        rw [Uri.eq_of_not_lt h1 h2]
        simp only [find]
        split <;> rfl

/-- A key has the value last set, and the other keys keep theirs. -/
@[simp] theorem get?_insert (m : UriMap α) (u v : Uri) (x : α) :
    (m.insert u x).get? v = if v = u then some x else m.get? v :=
  find_insertInto

@[simp] theorem contains_insert (m : UriMap α) (u v : Uri) (x : α) :
    (m.insert u x).contains v = (decide (v = u) || m.contains v) := by
  unfold contains
  rw [get?_insert]
  by_cases h : v = u <;> simp [h]

theorem find_filter {p : Uri × α → Bool} {u : Uri} {l : List (Uri × α)}
    (h : l.Pairwise fun a b => a.1 < b.1) :
    find u (l.filter p) = (find u l).filter fun x => p (u, x) := by
  have hf := h.filter p
  cases hu : find u l with
  | none =>
    cases hv : find u (l.filter p) with
    | none => rfl
    | some y =>
      rw [find_eq_some_iff hf, List.mem_filter, ← find_eq_some_iff h, hu] at hv
      cases hv.1
  | some x =>
    rw [Option.filter_some]
    have hx := (find_eq_some_iff h).1 hu
    split
    · rename_i hp
      rw [find_eq_some_iff hf, List.mem_filter]
      exact ⟨hx, hp⟩
    · rename_i hp
      cases hv : find u (l.filter p) with
      | none => rfl
      | some y =>
        rw [find_eq_some_iff hf, List.mem_filter, ← find_eq_some_iff h, hu] at hv
        obtain ⟨e, hy⟩ := hv
        cases e
        exact absurd hy hp

@[simp] theorem get?_filter (m : UriMap α) (p : Uri → α → Bool) (u : Uri) :
    (m.filter p).get? u = (m.get? u).filter (p u) :=
  find_filter m.ascending

theorem contains_filter (m : UriMap α) (p : Uri → Bool) (u : Uri) :
    (m.filter fun v _ => p v).contains u = (m.contains u && p u) := by
  unfold contains
  rw [get?_filter]
  cases m.get? u <;> cases p u <;> simp

/-- An erased key has no value, and the other keys keep theirs. -/
@[simp] theorem get?_erase (m : UriMap α) (u v : Uri) :
    (m.erase u).get? v = if v = u then none else m.get? v := by
  unfold erase
  rw [get?_filter]
  cases m.get? v <;> by_cases h : v = u <;> simp [h]

theorem find_map {f : Uri → α → β} {u : Uri} {l : List (Uri × α)} :
    find u (l.map fun e => (e.1, f e.1 e.2)) = (find u l).map (f u) := by
  induction l with
  | nil => rfl
  | cons d r ih =>
    simp only [List.map_cons, find, ih]
    split
    · rename_i e
      subst e
      rfl
    · rfl

@[simp] theorem get?_mapValues (f : Uri → α → β) (m : UriMap α) (u : Uri) :
    (m.mapValues f).get? u = (m.get? u).map (f u) :=
  find_map

/-- Only the value of the modified key changes. -/
@[simp] theorem get?_modify (m : UriMap α) (u v : Uri) (f : α → α) :
    (m.modify u f).get? v = if v = u then (m.get? v).map f else m.get? v := by
  unfold modify
  rw [get?_mapValues]
  by_cases h : v = u <;> simp [h]

@[simp] theorem get?_upsert (m : UriMap α) (u v : Uri) (d : α) (f : α → α) :
    (m.upsert u d f).get? v = if v = u then some (f (m.getD u d)) else m.get? v := by
  unfold upsert
  rw [get?_insert]

/-- The keys of a map made of entries are theirs. -/
theorem contains_ofList {es : List (Uri × α)} {u : Uri} :
    (ofList es).contains u = true ↔ u ∈ es.map (·.1) := by
  have hfrom (m : UriMap α) : (es.foldl (fun m e => m.insert e.1 e.2) m).contains u = true ↔
      m.contains u = true ∨ u ∈ es.map (·.1) := by
    induction es generalizing m with
    | nil => simp
    | cons e es ih =>
      rw [List.foldl_cons, ih, contains_insert, List.map_cons, List.mem_cons, Bool.or_eq_true,
        decide_eq_true_iff, or_comm (a := u = e.1), or_assoc]
  exact (hfrom empty).trans (or_iff_right (by simp [contains, get?, empty, find]))

/-- The values are what look-ups find. -/
theorem mem_values {m : UriMap α} {x : α} : x ∈ m.values ↔ ∃ u, m.get? u = some x := by
  unfold values
  rw [List.mem_map]
  constructor
  · rintro ⟨e, he, rfl⟩
    exact ⟨e.1, get?_eq_some_iff.2 he⟩
  · rintro ⟨u, hu⟩
    exact ⟨(u, x), get?_eq_some_iff.1 hu, rfl⟩

/-- The keys are what look-ups find something under. -/
theorem mem_keys {m : UriMap α} {u : Uri} : u ∈ m.keys ↔ ∃ x, m.get? u = some x := by
  unfold keys
  rw [List.mem_map]
  constructor
  · rintro ⟨⟨v, x⟩, he, rfl⟩
    exact ⟨x, get?_eq_some_iff.2 he⟩
  · rintro ⟨x, hx⟩
    exact ⟨(u, x), get?_eq_some_iff.1 hx, rfl⟩

theorem keys_ascending (m : UriMap α) : m.keys.Pairwise (· < ·) := by
  unfold keys
  rw [List.pairwise_map]
  exact m.ascending

/-- Maps with the same look-ups are equal. -/
theorem ext_get? {m n : UriMap α} (h : ∀ u, m.get? u = n.get? u) : m = n := by
  obtain ⟨l, hl⟩ := m
  obtain ⟨k, hk⟩ := n
  have key : ∀ l k : List (Uri × α), (l.Pairwise fun a b => a.1 < b.1) →
      (k.Pairwise fun a b => a.1 < b.1) → (∀ u, find u l = find u k) → l = k := by
    intro l
    induction l with
    | nil =>
      intro k _ _ h
      cases k with
      | nil => rfl
      | cons b k => have := h b.1; simp [find] at this
    | cons a l ih =>
      intro k hl hk h
      cases k with
      | nil => have := h a.1; simp [find] at this
      | cons b k =>
        have hab : a = b := by
          have ha : a ∈ b :: k :=
            (find_eq_some_iff hk).1
              ((h a.1).symm.trans ((find_eq_some_iff hl).2 List.mem_cons_self))
          have hb : b ∈ a :: l :=
            (find_eq_some_iff hl).1 ((h b.1).trans ((find_eq_some_iff hk).2 List.mem_cons_self))
          rw [List.pairwise_cons] at hl hk
          rcases List.mem_cons.1 ha with e | ha
          · exact e
          · rcases List.mem_cons.1 hb with e | hb
            · exact e.symm
            · exact absurd (hl.1 b hb) (Uri.lt_asymm (hk.1 a ha))
        subst hab
        congr 1
        rw [List.pairwise_cons] at hl hk
        refine ih k hl.2 hk.2 fun u => ?_
        have hu := h u
        obtain ⟨v, x⟩ := a
        simp only [find] at hu
        by_cases e : u = v
        · subst e
          have none_of : ∀ r : List (Uri × α), (∀ e ∈ r, u < e.1) →
              (r.Pairwise fun a b => a.1 < b.1) → find u r = none := by
            intro r hr hp
            cases hf : find u r with
            | none => rfl
            | some y => exact absurd (hr _ ((find_eq_some_iff hp).1 hf)) (Uri.lt_irrefl u)
          rw [none_of l hl.1 hl.2, none_of k hk.1 hk.2]
        · simpa [e] using hu
  have := key l k hl hk h
  subst this
  rfl

/-- Changing the value of an identifier twice puts the final value there. -/
theorem modify_modify {m : UriMap α} {u : Uri} {x : α} (h : m.get? u = some x) (f g : α → α) :
    (m.modify u f).modify u g = m.insert u (g (f x)) := by
  refine ext_get? fun v => ?_
  rw [get?_modify, get?_modify, get?_insert]
  by_cases hv : v = u
  · rw [if_pos hv, if_pos hv, if_pos hv, hv, h]
    rfl
  · rw [if_neg hv, if_neg hv, if_neg hv]

end UriMap

end Parley
