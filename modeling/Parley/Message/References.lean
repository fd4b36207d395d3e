/-
The six ways one message may point at another, and tables with one entry per way. The references of
a message are such a table of sets. Main statements: reading a table after a change to it, and which
identifiers references hold once one is added or a list is read.
-/
import Parley.UriSet

namespace Parley

/-- The six ways one message may point at another, in wire order. -/
inductive ReferenceKind where
  | proposes
  | claims
  | accepts
  | rejects
  | retracts
  | proposesToCancel
  deriving DecidableEq, Inhabited

namespace ReferenceKind

/-- Every kind, in wire order. -/
def all : List ReferenceKind :=
  [.proposes, .claims, .accepts, .rejects, .retracts, .proposesToCancel]

/-- The wire name of a kind. -/
def name : ReferenceKind → String
  | .proposes => "proposes"
  | .claims => "claims"
  | .accepts => "accepts"
  | .rejects => "rejects"
  | .retracts => "retracts"
  | .proposesToCancel => "proposesToCancel"

@[simp] theorem mem_all (k : ReferenceKind) : k ∈ all := by
  cases k <;> decide

end ReferenceKind

/-- A table with one entry per reference kind. -/
structure ByKind (α : Type) where
  proposes : α
  claims : α
  accepts : α
  rejects : α
  retracts : α
  proposesToCancel : α
  deriving DecidableEq

namespace ByKind

variable {α β : Type}

/-- The entry of a kind. -/
def get (t : ByKind α) : ReferenceKind → α
  | .proposes => t.proposes
  | .claims => t.claims
  | .accepts => t.accepts
  | .rejects => t.rejects
  | .retracts => t.retracts
  | .proposesToCancel => t.proposesToCancel

/-- The table whose entries a function gives. -/
def ofFn (f : ReferenceKind → α) : ByKind α :=
  ⟨f .proposes, f .claims, f .accepts, f .rejects, f .retracts, f .proposesToCancel⟩

/-- The table with one entry replaced. -/
def modify (t : ByKind α) (k : ReferenceKind) (f : α → α) : ByKind α :=
  ofFn fun j => if j = k then f (t.get j) else t.get j

/-- The table of the images of the entries. -/
def map (f : α → β) (t : ByKind α) : ByKind β :=
  ofFn fun k => f (t.get k)

@[simp] theorem get_ofFn (f : ReferenceKind → α) (k : ReferenceKind) : (ofFn f).get k = f k := by
  cases k <;> rfl

@[simp] theorem get_modify (t : ByKind α) (j k : ReferenceKind) (f : α → α) :
    (t.modify k f).get j = if j = k then f (t.get j) else t.get j := by
  simp [modify]

@[simp] theorem get_map (f : α → β) (t : ByKind α) (k : ReferenceKind) :
    (t.map f).get k = f (t.get k) := by
  simp [map]

/-- Tables with the same entries are equal. -/
theorem ext_get {s t : ByKind α} (h : ∀ k, s.get k = t.get k) : s = t := by
  obtain ⟨a, b, c, d, e, f⟩ := s
  obtain ⟨a', b', c', d', e', f'⟩ := t
  have h1 := h .proposes
  have h2 := h .claims
  have h3 := h .accepts
  have h4 := h .rejects
  have h5 := h .retracts
  have h6 := h .proposesToCancel
  simp only [get] at h1 h2 h3 h4 h5 h6
  subst h1 h2 h3 h4 h5 h6
  rfl

end ByKind

/-- The references of a message: per kind, the identifiers it points at. -/
abbrev References := ByKind UriSet

namespace References

/-- No reference at all. -/
def none : References :=
  ByKind.ofFn fun _ => ∅

/-- The references with one more; a blank identifier is no reference. -/
def insert (refs : References) (k : ReferenceKind) (target : Uri) : References :=
  if target.isBlank then refs else refs.modify k fun s => s.insert target

/-- Whether there is a reference of the kind. -/
def has (refs : References) (k : ReferenceKind) : Bool :=
  !(refs.get k).isEmpty

/-- Whether there is no reference of any kind. -/
def isEmpty (refs : References) : Bool :=
  ReferenceKind.all.all fun k => !has refs k

/-- The references as pairs: in wire order of the kinds, and each kind in order. -/
def pairs (refs : References) : List (ReferenceKind × Uri) :=
  ReferenceKind.all.flatMap fun k => (refs.get k).toList.map fun u => (k, u)

/-- The references of a list of identifiers per kind, without the blank ones. -/
def ofLists (lists : ByKind (List Uri)) : References :=
  lists.map fun us => UriSet.ofList (us.filter fun u => !u.isBlank)

/-! ## What they hold -/

@[simp] theorem not_mem_none (k : ReferenceKind) (u : Uri) : u ∉ none.get k := by
  simp [none]

/-- Adding a reference adds it and nothing else, unless it is blank. -/
theorem mem_get_insert {refs : References} {j k : ReferenceKind} {u v : Uri} :
    v ∈ (insert refs k u).get j ↔ (j = k ∧ v = u ∧ u.isBlank = false) ∨ v ∈ refs.get j := by
  unfold insert
  cases hb : u.isBlank
  · by_cases h : j = k <;> simp [h]
  · simp

theorem mem_pairs {refs : References} {k : ReferenceKind} {u : Uri} :
    (k, u) ∈ pairs refs ↔ u ∈ refs.get k := by
  simp [pairs, UriSet.mem_def]

/-- References of lists hold exactly the identifiers of the lists that are not blank. -/
theorem mem_get_ofLists {lists : ByKind (List Uri)} {k : ReferenceKind} {u : Uri} :
    u ∈ (ofLists lists).get k ↔ u ∈ lists.get k ∧ u.isBlank = false := by
  simp [ofLists]

end References

end Parley
