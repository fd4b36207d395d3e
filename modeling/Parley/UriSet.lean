/-
Finite sets of identifiers, kept as their strictly ascending list, so that sets with the same
members are equal values. Main statements: membership after each operation, and extensionality.
-/
import Parley.Uri

namespace Parley

/-- A finite set of identifiers: the strictly ascending list of its members. -/
structure UriSet where
  toList : List Uri
  ascending : toList.Pairwise (· < ·)
  deriving DecidableEq

namespace UriSet

/-- Insertion into an ascending list, without a second copy. -/
def insertInto (u : Uri) : List Uri → List Uri
  | [] => [u]
  | v :: vs => if u < v then u :: v :: vs else if v < u then v :: insertInto u vs else v :: vs

theorem mem_insertInto {u w : Uri} {l : List Uri} : w ∈ insertInto u l ↔ w = u ∨ w ∈ l := by
  induction l with
  | nil => simp [insertInto]
  | cons v vs ih =>
    unfold insertInto
    split
    · simp
    · split
      · simp only [List.mem_cons, ih]
        constructor
        · rintro (h | h | h) <;> simp [h]
        · rintro (h | h | h) <;> simp [h]
      · rename_i h h'
        rw [Uri.eq_of_not_lt h h']
        simp only [List.mem_cons]
        constructor
        · exact Or.inr
        · rintro (h | h)
          · exact Or.inl h
          · exact h

theorem insertInto_ascending {u : Uri} {l : List Uri} (h : l.Pairwise (· < ·)) :
    (insertInto u l).Pairwise (· < ·) := by
  induction l with
  | nil => simp [insertInto]
  | cons v vs ih =>
    rw [List.pairwise_cons] at h
    unfold insertInto
    split
    · rename_i huv
      rw [List.pairwise_cons, List.pairwise_cons]
      refine ⟨fun w hw => ?_, h.1, h.2⟩
      rcases List.mem_cons.1 hw with rfl | hw
      · exact huv
      · exact Uri.lt_trans huv (h.1 w hw)
    · split
      · rename_i hvu
        rw [List.pairwise_cons]
        refine ⟨fun w hw => ?_, ih h.2⟩
        rcases mem_insertInto.1 hw with rfl | hw
        · exact hvu
        · exact h.1 w hw
      · exact List.pairwise_cons.2 h

/-- The set without members. -/
def empty : UriSet := ⟨[], List.Pairwise.nil⟩

instance : Inhabited UriSet := ⟨empty⟩

instance : EmptyCollection UriSet := ⟨empty⟩

instance : Membership Uri UriSet := ⟨fun s u => u ∈ s.toList⟩

instance decidableMem (u : Uri) (s : UriSet) : Decidable (u ∈ s) :=
  inferInstanceAs (Decidable (u ∈ s.toList))

/-- The set with one more member. -/
def insert (u : Uri) (s : UriSet) : UriSet :=
  ⟨insertInto u s.toList, insertInto_ascending s.ascending⟩

/-- The members that pass a test. -/
def filter (p : Uri → Bool) (s : UriSet) : UriSet :=
  ⟨s.toList.filter p, s.ascending.filter p⟩

/-- The set with every identifier of a list added. -/
def insertAll (s : UriSet) (us : List Uri) : UriSet :=
  us.foldl (fun s u => s.insert u) s

/-- The set of the identifiers of a list. -/
def ofList (us : List Uri) : UriSet :=
  insertAll empty us

/-- The members of the first set that are not in the second. -/
def diff (s t : UriSet) : UriSet :=
  s.filter fun u => u ∉ t

/-- No member at all. -/
def isEmpty (s : UriSet) : Bool :=
  s.toList.isEmpty

/-- The number of members. -/
def size (s : UriSet) : Nat :=
  s.toList.length

/-! ## Membership -/

theorem mem_def {u : Uri} {s : UriSet} : u ∈ s ↔ u ∈ s.toList := Iff.rfl

@[simp] theorem not_mem_empty (u : Uri) : u ∉ (∅ : UriSet) := by
  rw [mem_def]
  exact List.not_mem_nil

@[simp] theorem mem_insert {u v : Uri} {s : UriSet} : v ∈ s.insert u ↔ v = u ∨ v ∈ s :=
  mem_insertInto

@[simp] theorem mem_filter {p : Uri → Bool} {u : Uri} {s : UriSet} :
    u ∈ s.filter p ↔ u ∈ s ∧ p u = true :=
  List.mem_filter

@[simp] theorem mem_insertAll {us : List Uri} {u : Uri} {s : UriSet} :
    u ∈ s.insertAll us ↔ u ∈ us ∨ u ∈ s := by
  induction us generalizing s with
  | nil => simp [insertAll]
  | cons v vs ih =>
    have : s.insertAll (v :: vs) = (s.insert v).insertAll vs := rfl
    rw [this, ih, mem_insert, List.mem_cons]
    constructor
    · rintro (h | h | h) <;> simp [h]
    · rintro ((h | h) | h) <;> simp [h]

@[simp] theorem mem_ofList {us : List Uri} {u : Uri} : u ∈ ofList us ↔ u ∈ us := by
  unfold ofList
  rw [mem_insertAll]
  exact or_iff_left (not_mem_empty u)

@[simp] theorem mem_diff {s t : UriSet} {u : Uri} : u ∈ s.diff t ↔ u ∈ s ∧ u ∉ t := by
  simp [diff]

/-- Sets with the same members are equal. -/
theorem ext_mem {s t : UriSet} (h : ∀ u, u ∈ s ↔ u ∈ t) : s = t := by
  obtain ⟨l, hl⟩ := s
  obtain ⟨m, hm⟩ := t
  have key : ∀ l m : List Uri, l.Pairwise (· < ·) → m.Pairwise (· < ·) →
      (∀ u, u ∈ l ↔ u ∈ m) → l = m := by
    intro l
    induction l with
    | nil =>
      intro m _ _ h
      cases m with
      | nil => rfl
      | cons b m => exact absurd ((h b).2 List.mem_cons_self) List.not_mem_nil
    | cons a l ih =>
      intro m hl hm h
      cases m with
      | nil => exact absurd ((h a).1 List.mem_cons_self) List.not_mem_nil
      | cons b m =>
        rw [List.pairwise_cons] at hl hm
        have hab : a = b := by
          rcases List.mem_cons.1 ((h a).1 List.mem_cons_self) with e | ha
          · exact e
          · rcases List.mem_cons.1 ((h b).2 List.mem_cons_self) with e | hb
            · exact e.symm
            · exact absurd (hl.1 b hb) (Uri.lt_asymm (hm.1 a ha))
        subst hab
        congr 1
        refine ih m hl.2 hm.2 fun u => ⟨fun hu => ?_, fun hu => ?_⟩
        · rcases List.mem_cons.1 ((h u).1 (List.mem_cons_of_mem _ hu)) with rfl | h'
          · exact absurd (hl.1 u hu) (Uri.lt_irrefl u)
          · exact h'
        · rcases List.mem_cons.1 ((h u).2 (List.mem_cons_of_mem _ hu)) with rfl | h'
          · exact absurd (hm.1 u hu) (Uri.lt_irrefl u)
          · exact h'
  have := key l m hl hm h
  subst this
  rfl

theorem diff_eq_self {s t : UriSet} (h : ∀ u ∈ s, u ∉ t) : s.diff t = s :=
  ext_mem fun u => mem_diff.trans (and_iff_left_of_imp (h u))

end UriSet

end Parley
