/-
What goes when a resource is deleted. An atom takes its container and every connection bound to it
along, whichever of the atom and its container the node says it deleted; a connection goes alone; an
external document is kept. Main statement: exactly these records go, every other record stays as it
is, and the answer lists each record that went once, the atom before its container, and the
container before the connections, which are listed by identifier.
-/
import Parley.Proofs.Loading.Owners

namespace Parley.Loading

/-- The place of a kind in a list of deleted records. -/
def ResourceKind.rank : ResourceKind → Nat
  | .atom => 0
  | .container => 1
  | .connection => 2
  | .external => 3

/-- The order in which deleted records are listed: by kind, and by identifier within a kind. -/
def ListedBefore (a b : ResourceKind × Uri) : Prop :=
  a.1.rank < b.1.rank ∨ a.1 = b.1 ∧ a.2 < b.2

namespace Tracker

/-- Whether a record goes when an atom is deleted: that of the atom, that of its container, and
those of the connections bound to it. -/
def goesWithAtom (t : Tracker) (atom : Uri) : ResourceKind → Uri → Bool
  | .atom, v | .container, v => v = atom
  | .connection, v => t.ownerOf v = some atom
  | .external, _ => false

/-- Whether a record goes when the node says that it deleted a resource. -/
def goesWith (t : Tracker) : ResourceKind → Uri → ResourceKind → Uri → Bool
  | .atom, u | .container, u => t.goesWithAtom u
  | .connection, u => fun kind v => kind = .connection && v = u
  | .external, _ => fun _ _ => false

/-- Exactly the records that pass a test go; the answer lists those of them that there were. -/
structure Removes (t : Tracker) (gone : ResourceKind → Uri → Bool)
    (r : List (ResourceKind × Uri) × Tracker) : Prop where
  atoms : ∀ v, r.2.atoms.get? v = if gone .atom v then none else t.atoms.get? v
  containers : ∀ v, r.2.containers.get? v = if gone .container v then none else t.containers.get? v
  connections : ∀ v,
    r.2.connections.get? v = if gone .connection v then none else t.connections.get? v
  external : ∀ v, r.2.external.get? v = if gone .external v then none else t.external.get? v
  limit : r.2.maxFailures = t.maxFailures
  listed : ∀ kind v, (kind, v) ∈ r.1 ↔ gone kind v = true ∧ t.knows kind v = true
  ordered : r.1.Pairwise ListedBefore

theorem Removes.load? {t : Tracker} {gone : ResourceKind → Uri → Bool}
    {r : List (ResourceKind × Uri) × Tracker} (h : t.Removes gone r) (kind : ResourceKind)
    (v : Uri) : r.2.load? kind v = if gone kind v then none else t.load? kind v := by
  cases kind with
  | atom =>
    simp only [Tracker.load?, h.atoms]
    split <;> rfl
  | container => exact h.containers v
  | connection =>
    simp only [Tracker.load?, h.connections]
    split <;> rfl
  | external => exact h.external v

section

variable (t : Tracker)

/-! ## What is known -/

theorem knows_eq_contains (v : Uri) :
    t.knows .atom v = t.atoms.contains v ∧ t.knows .container v = t.containers.contains v ∧
      t.knows .connection v = t.connections.contains v ∧
      t.knows .external v = t.external.contains v := by
  simp [knows, load?, UriMap.contains]

theorem contains_of_ownerOf {v atom : Uri} (h : t.ownerOf v = some atom) :
    t.connections.contains v = true := by
  obtain ⟨c, hc, -⟩ := Option.bind_eq_some_iff.1 h
  simp [UriMap.contains, hc]

theorem mem_connectionsOwnedBy_iff (atom v : Uri) :
    v ∈ t.connectionsOwnedBy atom ↔ t.ownerOf v = some atom := by
  unfold connectionsOwnedBy ownerOf
  rw [UriMap.mem_keys, Option.bind_eq_some_iff]
  refine exists_congr fun c => ?_
  rw [UriMap.get?_filter, Option.filter_eq_some_iff, decide_eq_true_iff]

/-! ## Deletions -/

theorem mem_removed_iff (atom : Uri) (kind : ResourceKind) (v : Uri) :
    (kind, v) ∈ (t.forgetAtom atom).1 ↔
      t.goesWithAtom atom kind v = true ∧ t.knows kind v = true := by
  obtain ⟨hatom, hcontainer, hconnection, -⟩ := t.knows_eq_contains v
  have hone (known : Bool) (k : ResourceKind) :
      (kind, v) ∈ (if known then [(k, atom)] else []) ↔ kind = k ∧ v = atom ∧ known = true := by
    cases known <;> simp
  unfold forgetAtom
  simp only [List.mem_append, hone, List.mem_map, Prod.mk.injEq, mem_connectionsOwnedBy_iff]
  cases kind with
  | atom =>
    rw [hatom]
    simp only [goesWithAtom, decide_eq_true_iff]
    constructor
    · rintro ((⟨-, rfl, h⟩ | ⟨h, -⟩) | ⟨_, -, h, -⟩)
      · exact ⟨rfl, h⟩
      · cases h
      · cases h
    · rintro ⟨rfl, h⟩
      exact Or.inl (Or.inl ⟨trivial, rfl, h⟩)
  | container =>
    rw [hcontainer]
    simp only [goesWithAtom, decide_eq_true_iff]
    constructor
    · rintro ((⟨h, -⟩ | ⟨-, rfl, h⟩) | ⟨_, -, h, -⟩)
      · cases h
      · exact ⟨rfl, h⟩
      · cases h
    · rintro ⟨rfl, h⟩
      exact Or.inl (Or.inr ⟨trivial, rfl, h⟩)
  | connection =>
    rw [hconnection]
    simp only [goesWithAtom, decide_eq_true_iff]
    constructor
    · rintro ((⟨h, -⟩ | ⟨h, -⟩) | ⟨_, h, -, rfl⟩)
      · cases h
      · cases h
      · exact ⟨h, t.contains_of_ownerOf h⟩
    · rintro ⟨h, -⟩
      exact Or.inr ⟨v, h, trivial, rfl⟩
  | external => simp [goesWithAtom]

theorem removed_ordered (atom : Uri) : (t.forgetAtom atom).1.Pairwise ListedBefore := by
  have hone (known : Bool) (k : ResourceKind) :
      (if known then [(k, atom)] else []).Pairwise ListedBefore := by
    cases known <;> simp
  have hkind {known : Bool} {k : ResourceKind} {r : ResourceKind × Uri}
      (h : r ∈ if known then [(k, atom)] else []) : r.1 = k := by
    cases known <;> simp_all
  have hconnections :
      ((t.connectionsOwnedBy atom).map fun c => (ResourceKind.connection, c)).Pairwise
        ListedBefore := by
    rw [List.pairwise_map]
    exact (UriMap.keys_ascending _).imp fun h => Or.inr ⟨rfl, h⟩
  unfold forgetAtom
  refine List.pairwise_append.2 ⟨List.pairwise_append.2 ⟨hone _ _, hone _ _, ?_⟩, hconnections, ?_⟩
  · intro a ha b hb
    refine Or.inl ?_
    rw [hkind ha, hkind hb]
    decide
  · intro a ha b hb
    obtain ⟨c, -, rfl⟩ := List.mem_map.1 hb
    refine Or.inl ?_
    rcases List.mem_append.1 ha with ha | ha
    · rw [hkind ha]
      exact Nat.zero_lt_two
    · rw [hkind ha]
      exact Nat.one_lt_two

/-- An atom takes its container and the connections bound to it along. -/
theorem removes_forgetAtom (atom : Uri) : t.Removes (t.goesWithAtom atom) (t.forgetAtom atom) where
  atoms v := by
    show (t.atoms.erase atom).get? v = _
    simp [goesWithAtom]
  containers v := by
    show (t.containers.erase atom).get? v = _
    simp [goesWithAtom]
  connections v := by
    show (t.connections.filter _).get? v = _
    rw [UriMap.get?_filter]
    have hgone : t.goesWithAtom atom .connection v = true ↔
        (t.connections.get? v).bind (·.atom) = some atom := decide_eq_true_iff
    simp only [hgone]
    cases t.connections.get? v with
    | none => simp
    | some c => by_cases hc : c.atom = some atom <;> simp [Option.filter, hc]
  external _ := rfl
  limit := rfl
  listed := t.mem_removed_iff atom
  ordered := t.removed_ordered atom

/-- A connection goes alone. -/
theorem removes_forgetConnection (u : Uri) :
    t.Removes (t.goesWith .connection u) (t.forgetConnection u) where
  atoms _ := rfl
  containers _ := rfl
  connections v := by
    show (t.connections.erase u).get? v = _
    simp [goesWith]
  external _ := rfl
  limit := rfl
  listed kind v := by
    obtain ⟨-, -, hconnection, -⟩ := t.knows_eq_contains v
    unfold forgetConnection goesWith
    cases kind with
    | connection =>
      rw [hconnection]
      by_cases hv : v = u
      · subst hv
        cases t.connections.contains v <;> simp
      · cases t.connections.contains u <;> simp [hv]
    | atom | container | external => cases t.connections.contains u <;> simp
  ordered := by
    unfold forgetConnection
    cases t.connections.contains u <;> simp

/-- What the node says it deleted goes, with what goes with it, whether or not it was being
fetched. -/
theorem removes_fail {kind : ResourceKind} (hkind : kind ≠ .external) (u : Uri)
    {status : FetchAnswer} (h : status.saysGone = true) :
    ∃ r, t.fail kind u status = (.gone r.1, r.2) ∧ t.Removes (t.goesWith kind u) r := by
  cases kind with
  | atom | container =>
    exact ⟨_, t.fail_of_gone u (by decide) (by decide) h, t.removes_forgetAtom u⟩
  | connection => exact ⟨_, t.fail_connection_of_gone u h, t.removes_forgetConnection u⟩
  | external => exact absurd rfl hkind

end

/-- The records are known as before, and all but external ones are the same. -/
structure KeepsAll (t t' : Tracker) : Prop where
  atoms : t'.atoms = t.atoms
  containers : t'.containers = t.containers
  connections : t'.connections = t.connections
  external : ∀ v, t'.external.contains v = t.external.contains v

theorem keepsAll_fail_external (t : Tracker) (u : Uri) (status : FetchAnswer) :
    (∀ removed, (t.fail .external u status).1 ≠ .gone removed) ∧
      t.KeepsAll (t.fail .external u status).2 := by
  rw [fail_of_kept t u (Or.inr rfl)]
  split
  · rename_i hloading
    refine ⟨fun _ h => (by cases h), rfl, rfl, rfl, fun v => ?_⟩
    show (t.external.insert u _).contains v = _
    rw [UriMap.contains_insert]
    by_cases hv : v = u
    · -- a document that is being fetched has a record
      subst hv
      obtain ⟨l, hl, -⟩ := Option.map_eq_some_iff.1 (of_decide_eq_true hloading)
      have hknown : t.external.get? v = some l := hl
      simp [UriMap.contains, hknown]
    · simp [hv]
  · exact ⟨fun _ h => (by cases h), rfl, rfl, rfl, fun _ => rfl⟩

/-- Deleting an atom, by itself or because the node says that it deleted the atom or its container,
removes exactly the records of the atom, of its container and of the connections bound to it. What
the node says of a connection removes that connection alone, and what it says of an external
document removes nothing. -/
theorem deletion_cascades (t : Tracker) (u : Uri) {status : FetchAnswer}
    (h : status.saysGone = true) :
    t.Removes (t.goesWithAtom u) (t.forgetAtom u) ∧
      (∀ kind, kind = .atom ∨ kind = .container → ∃ r,
        t.fail kind u status = (.gone r.1, r.2) ∧ t.Removes (t.goesWithAtom u) r) ∧
      (∃ r, t.fail .connection u status = (.gone r.1, r.2) ∧
        t.Removes (fun kind v => kind = .connection && v = u) r) ∧
      (∀ removed, (t.fail .external u status).1 ≠ .gone removed) ∧
      t.KeepsAll (t.fail .external u status).2 := by
  have hconnection : ResourceKind.connection ≠ .external := by decide
  refine ⟨t.removes_forgetAtom u, ?_, t.removes_fail hconnection u h,
    t.keepsAll_fail_external u status⟩
  rintro kind (rfl | rfl)
  · exact t.removes_fail (by decide) u h
  · exact t.removes_fail (by decide) u h

/-- An atom with its container and two connections, beside a connection of another atom. -/
def household : Tracker :=
  { Tracker.empty 3 with
    atoms := .ofList [(⟨"a"⟩, .fresh), (⟨"b"⟩, .fresh)]
    containers := .ofList [(⟨"a"⟩, .fresh)]
    connections := .ofList
      [(⟨"d"⟩, { ConnectionRecord.fresh with atom := some ⟨"a"⟩ }),
        (⟨"c"⟩, { ConnectionRecord.fresh with atom := some ⟨"a"⟩ }),
        (⟨"e"⟩, { ConnectionRecord.fresh with atom := some ⟨"b"⟩ })] }

/-- The node says that the container is gone, which nobody is fetching. -/
theorem deletion_cascades_household :
    (FetchAnswer.mk (some 410) "Gone").saysGone = true ∧
      ∃ r, household.fail .container ⟨"a"⟩ ⟨some 410, "Gone"⟩ = (.gone r.1, r.2) ∧
        household.Removes (household.goesWithAtom ⟨"a"⟩) r ∧
        r.1 = [(.atom, ⟨"a"⟩), (.container, ⟨"a"⟩), (.connection, ⟨"c"⟩), (.connection, ⟨"d"⟩)] ∧
        r.2.connections.keys = [⟨"e"⟩] := by
  have hgone : (FetchAnswer.mk (some 410) "Gone").saysGone = true := by decide
  obtain ⟨-, hfail, -⟩ := household.deletion_cascades ⟨"a"⟩ hgone
  obtain ⟨r, hr, hremoves⟩ := hfail .container (Or.inr rfl)
  have hanswer : (household.fail .container ⟨"a"⟩ ⟨some 410, "Gone"⟩).1 = .gone
      [(.atom, ⟨"a"⟩), (.container, ⟨"a"⟩), (.connection, ⟨"c"⟩), (.connection, ⟨"d"⟩)] := by
    decide
  have hleft : (household.fail .container ⟨"a"⟩ ⟨some 410, "Gone"⟩).2.connections.keys =
      [⟨"e"⟩] := by
    decide
  rw [hr] at hanswer hleft
  exact ⟨hgone, r, hr, hremoves, Failure.gone.inj hanswer, hleft⟩

end Tracker

end Parley.Loading
