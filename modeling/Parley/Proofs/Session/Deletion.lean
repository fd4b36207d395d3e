/-
The ways in which an atom goes: the client deletes it, the node answers that it is gone when the
atom or its container is fetched, or the node delivers it as deleted. The first and the last take
away the connections that the client knows as the atom's, and the other two also those that are
bound to it in the load records. Main statement: as long as the data that arrive agree on who owns
which connection, all ways leave the same atoms, connections and load records, with nothing of the
atom among them.
-/
import Parley.Proofs.Loading.Deletion
import Parley.Proofs.Session.Owners

namespace Parley

open Loading

/-! ## Definitions -/

/-- An event by which an atom goes. The node's answer that it was deleted counts while the atom is
being fetched. -/
inductive Event.Deletes (s : Session) (atom : Uri) : Event → Prop
  | deleted : Deletes s atom (.atomDeleted atom)
  | atomGone {e : NodeFailure} : e.saysGone = true → Deletes s atom (.atomLoadFailed atom e)
  | containerGone {e : NodeFailure} :
      e.saysGone = true → Deletes s atom (.containerLoadFailed atom e)
  | loadedDeleted {data : AtomDocument} : data.uri = atom → data.state = .deleted →
      s.tracker.inFlight (.resource .atom atom) = true → Deletes s atom (.atomLoaded data)

namespace Session

/-- A state that knows of an atom, its connections and its load records nothing any more, and of
everything else what another state knows. -/
structure IsWithout (s : Session) (atom : Uri) (t : Session) : Prop where
  atoms : t.atoms = s.atoms.erase atom
  connections : t.connections = s.connections.filter fun _ c => c.atom ≠ atom
  atomRecords : t.tracker.atoms = s.tracker.atoms.erase atom
  containerRecords : t.tracker.containers = s.tracker.containers.erase atom
  connectionRecords :
    t.tracker.connections = s.tracker.connections.filter fun _ r => r.atom ≠ some atom
  externalRecords : t.tracker.external = s.tracker.external

/-! ## What is gone on the node -/

section

variable {s : Session} {atom : Uri}

/-- Forgetting what was removed with an atom forgets the connections among it. -/
theorem forget_removed {removed : List (ResourceKind × Uri)}
    (hremoved : ∀ r ∈ removed, r.1 = .connection ∨ r = (.atom, atom) ∨ r = (.container, atom))
    {t : Session} (hatoms : t.atoms.get? atom = none)
    (hconnections : ∀ v c, t.connections.get? v = some c → c.atom ≠ atom) :
    (removed.foldl (fun s r => s.forget r.1 r.2) t).atoms = t.atoms ∧
      ∀ v, (removed.foldl (fun s r => s.forget r.1 r.2) t).connections.get? v =
        if (ResourceKind.connection, v) ∈ removed then none else t.connections.get? v := by
  induction removed generalizing t with
  | nil => exact ⟨rfl, fun v => (if_neg List.not_mem_nil).symm⟩
  | cons r rs ih =>
    rw [List.forall_mem_cons] at hremoved
    have hforgotten : (t.forget r.1 r.2).atoms = t.atoms ∧
        ∀ v, (t.forget r.1 r.2).connections.get? v =
          if (ResourceKind.connection, v) = r then none else t.connections.get? v := by
      have hatom : (t.forgetAtom atom).atoms = t.atoms ∧
          ∀ v, (t.forgetAtom atom).connections.get? v = t.connections.get? v := by
        refine ⟨UriMap.ext_get? fun v => ?_, fun v => ?_⟩
        · show (t.atoms.erase atom).get? v = _
          rw [UriMap.get?_erase]
          split
          · rename_i e
            rw [e, hatoms]
          · rfl
        · show (t.connections.filter _).get? v = _
          rw [UriMap.get?_filter]
          cases hv : t.connections.get? v with
          | none => rfl
          | some c => simp [Option.filter, hconnections v c hv]
      obtain ⟨kind, u⟩ := r
      rcases hremoved.1 with hr | hr | hr <;> cases hr
      · refine ⟨rfl, fun v => ?_⟩
        show (t.connections.erase u).get? v = _
        simp [UriMap.get?_erase]
      · exact ⟨hatom.1, fun v => (hatom.2 v).trans (if_neg nofun).symm⟩
      · exact ⟨hatom.1, fun v => (hatom.2 v).trans (if_neg nofun).symm⟩
    obtain ⟨hatoms', hconnections'⟩ := ih hremoved.2 (t := t.forget r.1 r.2)
      (by rw [hforgotten.1]; exact hatoms) fun v c hv => by
        rw [hforgotten.2] at hv
        split at hv
        · cases hv
        · exact hconnections v c hv
    refine ⟨hatoms'.trans hforgotten.1, fun v => ?_⟩
    rw [List.foldl_cons, hconnections', hforgotten.2]
    by_cases hr : (ResourceKind.connection, v) = r <;>
      by_cases hrs : (ResourceKind.connection, v) ∈ rs <;> simp [hr, hrs]

theorem mem_removed_iff (t : Tracker) (atom v : Uri) :
    (ResourceKind.connection, v) ∈ (t.forgetAtom atom).1 ↔ t.ownerOf v = some atom := by
  rw [t.mem_removed_iff]
  refine ⟨fun h => of_decide_eq_true h.1, fun h => ⟨decide_eq_true h, ?_⟩⟩
  rw [(t.knows_eq_contains v).2.2.1]
  exact t.contains_of_ownerOf h

/-- A deleted atom takes away the connections that the client knows as its own and those that are
bound to it. -/
theorem takeFailure_gone {kind : ResourceKind} (hkind : kind = .atom ∨ kind = .container)
    {e : NodeFailure} (he : e.saysGone = true) (s : Session) (atom : Uri) :
    (s.takeFailure kind atom e).atoms = s.atoms.erase atom ∧
      (s.takeFailure kind atom e).tracker = (s.tracker.forgetAtom atom).2 ∧
      ∀ v, (s.takeFailure kind atom e).connections.get? v =
        if s.tracker.ownerOf v = some atom then none
        else (s.connections.get? v).filter fun c => c.atom ≠ atom := by
  have hne : kind ≠ .connection ∧ kind ≠ .external := by
    rcases hkind with rfl | rfl
    · exact ⟨nofun, nofun⟩
    · exact ⟨nofun, nofun⟩
  have hremoved : ∀ r ∈ (s.tracker.forgetAtom atom).1,
      r.1 = .connection ∨ r = (.atom, atom) ∨ r = (.container, atom) := by
    rintro ⟨kind, v⟩ hr
    obtain ⟨hgoes, -⟩ := (s.tracker.mem_removed_iff atom kind v).1 hr
    cases kind with
    | atom =>
      obtain rfl : v = atom := of_decide_eq_true hgoes
      exact Or.inr (Or.inl rfl)
    | container =>
      obtain rfl : v = atom := of_decide_eq_true hgoes
      exact Or.inr (Or.inr rfl)
    | connection => exact Or.inl rfl
    | external => cases hgoes
  let t : Session := ({ s with tracker := (s.tracker.forgetAtom atom).2 } : Session).forgetAtom atom
  have hconnections (v : Uri) : t.connections.get? v =
      (s.connections.get? v).filter fun c => c.atom ≠ atom := UriMap.get?_filter ..
  have hatoms : t.atoms.get? atom = none := (UriMap.get?_erase ..).trans (if_pos rfl)
  obtain ⟨hatoms', hconnections'⟩ := forget_removed hremoved (t := t) hatoms fun v c hv => by
    rw [hconnections, Option.filter_eq_some_iff] at hv
    exact of_decide_eq_true hv.2
  have htracker : (s.takeFailure kind atom e).tracker = (s.tracker.forgetAtom atom).2 := by
    have hgone : e.toStatus.saysGone = true := he
    rw [tracker_takeFailure, s.tracker.fail_of_gone atom hne.1 hne.2 hgone]
  refine ⟨?_, htracker, fun v => ?_⟩
  · rw [s.takeFailure_of_gone atom hne.1 hne.2 he]
    exact hatoms'
  · rw [s.takeFailure_of_gone atom hne.1 hne.2 he]
    refine (hconnections' v).trans ?_
    rw [hconnections]
    simp only [mem_removed_iff]

/-- The atom goes with the same connections whether the client deletes it or the node says that it
is gone exactly if no connection that is bound to it is another atom's for the client. -/
theorem gone_like_deleted_iff (s : Session) (atom : Uri) {e : NodeFailure}
    (he : e.saysGone = true) :
    (s.apply (.atomLoadFailed atom e)).connections = (s.apply (.atomDeleted atom)).connections ↔
      ∀ u a, s.tracker.ownerOf u = some atom → s.ownerOf u = some a → a = atom := by
  have hgone := (takeFailure_gone (Or.inl rfl) he { s with version := s.version + 1 } atom).2.2
  have hdeleted (v : Uri) : (s.apply (.atomDeleted atom)).connections.get? v =
      (s.connections.get? v).filter fun c => c.atom ≠ atom := UriMap.get?_filter ..
  have hsame : (s.apply (.atomLoadFailed atom e)).connections =
      (s.apply (.atomDeleted atom)).connections ↔ ∀ v, s.tracker.ownerOf v = some atom →
        (s.connections.get? v).filter (fun c => c.atom ≠ atom) = none := by
    constructor
    · intro h v hv
      rw [← hdeleted, ← h]
      exact (hgone v).trans (if_pos hv)
    · refine fun h => UriMap.ext_get? fun v => ?_
      rw [hdeleted]
      refine (hgone v).trans ?_
      split
      · exact (h v ‹_›).symm
      · rfl
  rw [hsame]
  simp only [Option.filter_eq_none_iff, ownerOf, Option.map_eq_some_iff]
  constructor
  · rintro h u _ hu ⟨c, hc, rfl⟩
    simpa using h u hu c hc
  · intro h v hv c hc
    simpa using h v c.atom hv ⟨c, hc, rfl⟩

/-! ## Every way of deletion -/

/-- While the owners agree, whatever deletes an atom leaves everything else, and nothing of it. -/
theorem Owned.isWithout (h : s.Owned) {e : Event} (he : e.Deletes s atom) :
    s.IsWithout atom (s.apply e) := by
  have hgone {kind : ResourceKind} (hkind : kind = .atom ∨ kind = .container) {f : NodeFailure}
      (hf : f.saysGone = true) : s.IsWithout atom
        (({ s with version := s.version + 1 } : Session).takeFailure kind atom f) := by
    obtain ⟨hatoms, htracker, hconnections⟩ :=
      takeFailure_gone hkind hf { s with version := s.version + 1 } atom
    refine ⟨hatoms, UriMap.ext_get? fun v => ?_, by rw [htracker]; rfl, by rw [htracker]; rfl,
      by rw [htracker]; rfl, by rw [htracker]; rfl⟩
    rw [hconnections, UriMap.get?_filter]
    split
    · rename_i hv
      -- a connection that is bound to the atom is the atom's
      symm
      refine Option.filter_eq_none_iff.2 fun c hc => ?_
      have howner := owned_iff.1 h v c.atom (by rw [ownerOf, hc]; rfl)
      rw [show s.tracker.ownerOf v = some atom from hv, Option.some.injEq] at howner
      simp [howner]
    · rfl
  cases he with
  | deleted => exact ⟨rfl, rfl, rfl, rfl, rfl, rfl⟩
  | atomGone hf => exact hgone (Or.inl rfl) hf
  | containerGone hf => exact hgone (Or.inr rfl) hf
  | @loadedDeleted data huri hstate hflight =>
    subst huri
    have hloading : s.tracker.isIn .loading .atom data.uri = true := hflight
    show s.IsWithout data.uri
      (({ s with version := s.version + 1 } : Session).takeAtom data)
    unfold takeAtom Tracker.complete
    simp only [hloading, if_true, hstate]
    refine ⟨rfl, rfl, UriMap.ext_get? fun v => ?_, rfl, rfl, rfl⟩
    show ((s.tracker.atoms.upsert data.uri _ _).erase data.uri).get? v = _
    rw [UriMap.get?_erase, UriMap.get?_erase, UriMap.get?_upsert]
    split <;> rfl

/-- Along every run of the client, every connection has a load record that is bound to its atom,
exactly if the data of each step agree on the owners. Then all ways in which an atom goes leave the
same, with nothing of the atom, and every connection still has its record. -/
theorem deletions_agree_iff (maxFailures : Nat) {ms : List Move} (hms : ∀ m ∈ ms, m.ByClient) :
    ((∀ pre, pre <+: ms → ((start maxFailures).moves pre).Owned) ↔
      (start maxFailures).Throughout (fun s m => m.AgreesOnOwners s) ms) ∧
    ((start maxFailures).Throughout (fun s m => m.AgreesOnOwners s) ms →
      ∀ atom e, e.Deletes ((start maxFailures).moves ms) atom →
        ((start maxFailures).moves ms).IsWithout atom (((start maxFailures).moves ms).apply e) ∧
        (((start maxFailures).moves ms).apply e).Owned) := by
  have howned := owned_throughout_iff hms (owned_start maxFailures)
  refine ⟨howned, fun hagree atom e he => ?_⟩
  have hbefore := howned.2 hagree ms (List.prefix_refl ms)
  refine ⟨hbefore.isWithout he, (owned_move_iff hbefore (.event e)).2 ?_⟩
  cases he with
  | deleted | atomGone | containerGone | loadedDeleted => trivial

end

/-- The container of an atom is fetched, and lists one connection of a socket. -/
def listing (socket : Uri) : List Move :=
  [.track fun t => (t.claim .container ⟨"own"⟩).2,
    .event (.containerLoaded ⟨"own"⟩ [⟨⟨"c"⟩, .connected, socket, ⟨"peer#s"⟩⟩])]

theorem listing_byClient (socket : Uri) : ∀ m ∈ listing socket, m.ByClient :=
  List.forall_mem_cons.2 ⟨.claim .container ⟨"own"⟩, List.forall_mem_singleton.2 (.event _)⟩

theorem deletions_agree_iff_listing :
    let s := (start 3).moves (listing ⟨"own#s"⟩)
    (∀ m ∈ listing ⟨"own#s"⟩, m.ByClient) ∧ s.ownerOf ⟨"c"⟩ = some ⟨"own"⟩ ∧
      s.Owned ∧ s.IsWithout ⟨"own"⟩ (s.apply (.containerLoadFailed ⟨"own"⟩ .gone)) ∧
      (s.apply (.containerLoadFailed ⟨"own"⟩ .gone)).connections = ∅ := by
  intro s
  obtain ⟨howned, hroutes⟩ := deletions_agree_iff 3 (listing_byClient ⟨"own#s"⟩)
  have hlisted : (((start 3).move (.track fun t => (t.claim .container ⟨"own"⟩).2)).ownerOf
      ⟨"c"⟩).or (ConnectionDocument.ownerAmong
        [⟨⟨"c"⟩, .connected, ⟨"own#s"⟩, ⟨"peer#s"⟩⟩] ⟨"c"⟩) = some ⟨"own"⟩ := by decide +kernel
  have hagree : (start 3).Throughout (fun s m => m.AgreesOnOwners s) (listing ⟨"own#s"⟩) := by
    refine ⟨trivial, fun _ d hd a ha => ?_, trivial⟩
    rw [List.mem_singleton.1 hd] at ha
    exact Option.some.inj (ha.symm.trans hlisted)
  obtain ⟨hwithout, -⟩ := hroutes hagree ⟨"own"⟩ _ (.containerGone (e := .gone) rfl)
  exact ⟨listing_byClient _, by decide +kernel, howned.2 hagree _ (List.prefix_refl _), hwithout,
    by decide +kernel⟩

/-- A container that lists the connection of another atom binds it to its own. When its atom is
deleted, the connection loses its record but stays; when the node says that the atom is gone, the
connection goes too. -/
theorem listed_connection_loses_record :
    let s := (start 3).moves (listing ⟨"other#s"⟩)
    (∀ m ∈ listing ⟨"other#s"⟩, m.ByClient) ∧
      s.ownerOf ⟨"c"⟩ = some ⟨"other"⟩ ∧ s.tracker.ownerOf ⟨"c"⟩ = some ⟨"own"⟩ ∧
      (s.apply (.atomDeleted ⟨"own"⟩)).ownerOf ⟨"c"⟩ = some ⟨"other"⟩ ∧
      (s.apply (.atomDeleted ⟨"own"⟩)).tracker.connections = ∅ ∧
      (s.apply (.atomLoadFailed ⟨"own"⟩ .gone)).connections = ∅ :=
  ⟨listing_byClient _, by decide +kernel⟩

end Session

end Parley
