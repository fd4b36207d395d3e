/-
The phases of the fetch cycle. A resource gets to be known as unrequested, as flagged or with its
first fetch; a fetch starts from any other phase, and it either lands or fails; and a record may go.
Main statement: in every state of the load records, every operation moves the phase of every
resource along this cycle or leaves it, a flag changes nothing that is known or blank, and an
operation on one resource changes the phases of others only where it removes them, or flags those
that a container or a message names.
-/
import Parley.Proofs.Loading.LoadRecords

namespace Parley.Loading

/-- The moves along the fetch cycle. What is not known has no phase. -/
inductive Phase.Move : Option Phase → Option Phase → Prop
  | appear {p : Phase} : p = .unrequested ∨ p = .toLoad ∨ p = .loading → Move none (some p)
  | start {p : Phase} : p ≠ .loading → Move (some p) (some .loading)
  | land {p : Phase} : p = .loaded ∨ p = .failedToLoad → Move (some .loading) (some p)
  | drop {p : Phase} : Move (some p) none

/-- How a step treats the phase of a resource. -/
structure Step.FollowsCycle (s : Step) (kind : ResourceKind) (u : Uri) : Prop where
  moves : s.after.phase? kind u = s.before.phase? kind u ∨
    Phase.Move (s.before.phase? kind u) (s.after.phase? kind u)
  /-- What is flagged was unknown, is not blank, and was named for loading. -/
  flags : s.after.phase? kind u = some .toLoad →
    s.before.phase? kind u = some .toLoad ∨
      s.before.phase? kind u = none ∧ u.isBlank = false ∧ s.Names kind u
  /-- A flag spares what is known or blank, and flags everything else. -/
  spares : s.Names kind u → s.before.knows kind u = true ∨ u.isBlank = true →
    s.after.load? kind u = s.before.load? kind u
  named : s.Names kind u → s.before.knows kind u = false → u.isBlank = false →
    s.after.phase? kind u = some .toLoad
  /-- Another resource than the one the operation is about. -/
  frame : s.operation.subject ≠ some (kind, u) →
    s.after.phase? kind u = s.before.phase? kind u ∨
      s.Removes kind u ∧ s.after.phase? kind u = none ∨
      s.Names kind u ∧ s.before.phase? kind u = none ∧ s.after.phase? kind u = some .toLoad

namespace LoadChange

variable {s : Step} {kind : ResourceKind} {u : Uri} {l l' : Option LoadRecord}

theorem moves (h : LoadChange s kind u l l') :
    l'.map (·.phase) = l.map (·.phase) ∨ Phase.Move (l.map (·.phase)) (l'.map (·.phase)) := by
  cases h with
  | kept => exact Or.inl rfl
  | appeared => exact Or.inr (.appear (Or.inl rfl))
  | named => exact Or.inr (.appear (Or.inr (Or.inl rfl)))
  | started hop hidle =>
    cases l with
    | none => exact Or.inr (.appear (Or.inr (Or.inr rfl)))
    | some l => exact Or.inr (.start fun h => hidle (congrArg some h))
  | landed hsubject hloading =>
    simp only [Option.map_some, hloading]
    exact Or.inr (.land (Or.inl rfl))
  | failed hfails hloading =>
    simp only [Option.map_some, hloading]
    exact Or.inr (.land (Or.inr rfl))
  | paged =>
    cases l with
    | none => exact Or.inr (.appear (Or.inl rfl))
    | some l => exact Or.inl rfl
  | removed =>
    cases l with
    | none => exact Or.inl rfl
    | some l => exact Or.inr .drop

theorem flags (h : LoadChange s kind u l l') (hflagged : l'.map (·.phase) = some .toLoad) :
    l.map (·.phase) = some .toLoad ∨
      l.map (·.phase) = none ∧ u.isBlank = false ∧ s.Names kind u := by
  cases h with
  | kept => exact Or.inl hflagged
  | named hnames hblank => exact Or.inr ⟨rfl, hblank, hnames⟩
  | paged =>
    cases l with
    | none => cases hflagged
    | some l => exact Or.inl hflagged
  | appeared | started | landed | failed | removed => cases hflagged

theorem frame (h : LoadChange s kind u l l') (hother : s.operation.subject ≠ some (kind, u)) :
    l'.map (·.phase) = l.map (·.phase) ∨ s.Removes kind u ∧ l'.map (·.phase) = none ∨
      s.Names kind u ∧ l.map (·.phase) = none ∧ l'.map (·.phase) = some .toLoad := by
  cases h with
  | kept => exact Or.inl rfl
  | removed hremoves => exact Or.inr (Or.inl ⟨hremoves, rfl⟩)
  | named hnames => exact Or.inr (Or.inr ⟨hnames, rfl, rfl⟩)
  | started hop => exact absurd (by rw [hop]; rfl) hother
  | failed hfails => exact absurd (by rw [hfails.1]; rfl) hother
  | appeared hsubject => exact absurd hsubject hother
  | landed hsubject => exact absurd hsubject hother
  | paged hsubject => exact absurd hsubject hother

end LoadChange

/-- Every operation moves every phase along the fetch cycle or leaves it. -/
theorem phases_follow_cycle (s : Step) (kind : ResourceKind) (u : Uri) :
    s.FollowsCycle kind u where
  moves := (s.loadChange kind u).moves
  flags := (s.loadChange kind u).flags
  spares hnames h := by
    rw [Step.load?_of_names hnames, LoadRecord.flagged, if_neg]
    rintro ⟨hnone, hblank⟩
    rcases h with hknown | hblank'
    · rw [Tracker.knows, hnone] at hknown
      cases hknown
    · rw [hblank] at hblank'
      cases hblank'
  named hnames hunknown hblank := by
    have hnone : s.before.load? kind u = none := by
      rwa [Tracker.knows, Option.isSome_eq_false_iff, Option.isNone_iff_eq_none] at hunknown
    rw [Tracker.phase?, Step.load?_of_names hnames, LoadRecord.flagged, if_pos ⟨hnone, hblank⟩]
    rfl
  frame := (s.loadChange kind u).frame

end Parley.Loading
