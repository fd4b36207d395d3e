/-
Who owns a connection is kept twice: the client keeps the atom with the connection, and the load
records bind the connection to an atom. The two agree until an event brings data that name two
atoms: a container that lists a connection of another atom, by its socket or as the client knows it,
or a connection whose socket names another atom than before. Main statements: what each event does
to the two owners, and that a step of the client keeps them in agreement exactly if its data do.
-/
import Parley.Proofs.Loading.InFlight
import Parley.Proofs.Loading.Owners
import Parley.Proofs.Session.Interleaving

namespace Parley

open Loading

/-! ## Definitions -/

namespace Session

/-- The atom that the client keeps with a connection. -/
def ownerOf (s : Session) (u : Uri) : Option Uri :=
  (s.connections.get? u).map (·.atom)

/-- Every connection has a load record, which is bound to the atom of the connection. -/
def Owned (s : Session) : Prop :=
  ∀ u c, s.connections.get? u = some c →
    ∃ r, s.tracker.connections.get? u = some r ∧ r.atom = some c.atom

end Session

/-- The atom that the documents of a connection name: that of the first whose socket names one. -/
def ConnectionDocument.ownerAmong (data : List ConnectionDocument) (u : Uri) : Option Uri :=
  data.findSome? fun d => if d.uri = u then d.owner? else none

/-- The data of an event name the owners that the client has or takes over. It matters only for a
container and a connection, and only while their fetch is in flight. -/
def Event.AgreesOnOwners (s : Session) : Event → Prop
  | .containerLoaded atom data =>
    s.tracker.inFlight (.resource .container atom) = true →
      ∀ d ∈ data, ∀ a,
        (s.ownerOf d.uri).or (ConnectionDocument.ownerAmong data d.uri) = some a → a = atom
  | .connectionLoaded d =>
    s.tracker.inFlight (.resource .connection d.uri) = true →
      ∀ a b, s.ownerOf d.uri = some a → d.owner? = some b → a = b
  | _ => True

def Move.AgreesOnOwners (s : Session) : Move → Prop
  | .event e => e.AgreesOnOwners s
  | .track _ => True

namespace Session

/-! ## Comparing the two owners -/

theorem owned_iff {s : Session} :
    s.Owned ↔ ∀ u a, s.ownerOf u = some a → s.tracker.ownerOf u = some a := by
  unfold Owned ownerOf Tracker.ownerOf
  simp only [Option.map_eq_some_iff, Option.bind_eq_some_iff]
  constructor
  · rintro h u _ ⟨c, hc, rfl⟩
    exact h u c hc
  · exact fun h u c hc => h u c.atom ⟨c, hc, rfl⟩

/-- Whatever only loses connections and binds as before keeps the owners in agreement. -/
theorem Owned.of_kept {s t : Session} (h : s.Owned)
    (hsession : ∀ u a, t.ownerOf u = some a → s.ownerOf u = some a)
    (htracker : ∀ u, t.tracker.ownerOf u = s.tracker.ownerOf u) : t.Owned := by
  rw [owned_iff] at h ⊢
  intro u a ha
  rw [htracker]
  exact h u a (hsession u a ha)

theorem Owned.of_loses {s t : Session} (h : s.Owned) (hloses : s.Loses t)
    (htracker : ∀ u, t.tracker.ownerOf u = s.tracker.ownerOf u) : t.Owned := by
  refine h.of_kept (fun u a ha => ?_) htracker
  unfold ownerOf at ha ⊢
  rcases hloses u with e | e
  · rwa [e] at ha
  · rw [e] at ha
    cases ha

theorem owned_start (maxFailures : Nat) : (start maxFailures).Owned :=
  fun _ _ h => absurd h nofun

/-! ## Deletion -/

section

variable {s : Session}

theorem ownerOf_forgetAtom (s : Session) (atom v : Uri) :
    (s.forgetAtom atom).ownerOf v = (s.ownerOf v).filter fun a => a ≠ atom := by
  unfold forgetAtom ownerOf
  simp only
  rw [UriMap.get?_filter]
  cases s.connections.get? v with
  | none => rfl
  | some c => by_cases e : c.atom = atom <;> simp [Option.filter, e]

theorem tracker_forget (s : Session) (kind : ResourceKind) (u : Uri) :
    (s.forget kind u).tracker = s.tracker := by
  cases kind <;> rfl

/-- What else goes with a deleted resource goes from the client's data only. -/
theorem tracker_takeFailure (s : Session) (kind : ResourceKind) (u : Uri) (e : NodeFailure) :
    (s.takeFailure kind u e).tracker = (s.tracker.fail kind u e.toStatus).2 := by
  have hforgotten (removed : List (ResourceKind × Uri)) (s : Session) :
      (removed.foldl (fun s r => s.forget r.1 r.2) s).tracker = s.tracker := by
    induction removed generalizing s with
    | nil => rfl
    | cons r rs ih => exact (ih _).trans (tracker_forget s r.1 r.2)
  unfold takeFailure
  split
  · rename_i h
    rw [h, hforgotten, tracker_forget]
  · rename_i h
    rw [h]

/-- An atom that goes takes the same connections with it on both sides. -/
theorem Owned.forgetAtom (h : s.Owned) {t : Tracker}
    (ht : ∀ u, t.ownerOf u = s.tracker.ownerOf u) (atom : Uri) :
    (({ s with tracker := (t.forgetAtom atom).2 } : Session).forgetAtom atom).Owned := by
  rw [owned_iff] at h ⊢
  intro u a ha
  rw [ownerOf_forgetAtom, Option.filter_eq_some_iff] at ha
  show (t.forgetAtom atom).2.ownerOf u = some a
  rw [Tracker.ownerOf_forgetAtom, ht, h u a ha.1]
  exact Option.filter_eq_some_iff.2 ⟨rfl, ha.2⟩

theorem Owned.forgetConnection (h : s.Owned) (u : Uri) :
    (({ s with tracker := (s.tracker.forgetConnection u).2 } : Session).forget
      .connection u).Owned := by
  rw [owned_iff] at h ⊢
  intro v a ha
  have hv : v ≠ u ∧ s.ownerOf v = some a := by
    unfold ownerOf forget at ha
    simp only [UriMap.get?_erase] at ha
    split at ha
    · cases ha
    · exact ⟨‹_›, ha⟩
  show (s.tracker.forgetConnection u).2.ownerOf v = some a
  rw [Tracker.ownerOf_forgetConnection, if_neg hv.1, h v a hv.2]

theorem Owned.forgetAll {t : Session} (h : t.Owned) (removed : List (ResourceKind × Uri)) :
    (removed.foldl (fun s r => s.forget r.1 r.2) t).Owned := by
  induction removed generalizing t with
  | nil => exact h
  | cons r rs ih =>
    exact ih (h.of_loses (t.loses_forget r.1 r.2) fun u => by rw [tracker_forget])

theorem takeFailure_of_gone (s : Session) {kind : ResourceKind} (u : Uri) {e : NodeFailure}
    (hc : kind ≠ .connection) (he : kind ≠ .external) (h : e.saysGone = true) :
    s.takeFailure kind u e = (s.tracker.forgetAtom u).1.foldl (fun s r => s.forget r.1 r.2)
      (({ s with tracker := (s.tracker.forgetAtom u).2 } : Session).forgetAtom u) := by
  have hgone : e.toStatus.saysGone = true := h
  unfold takeFailure
  rw [s.tracker.fail_of_gone u hc he hgone]
  cases kind with
  | atom | container => rfl
  | connection => exact absurd rfl hc
  | external => exact absurd rfl he

theorem Owned.takeFailure (h : s.Owned) (kind : ResourceKind) (u : Uri) (e : NodeFailure) :
    (s.takeFailure kind u e).Owned := by
  have hkept (hkept : e.toStatus.saysGone = false ∨ kind = .external) :
      (s.takeFailure kind u e).Owned := by
    obtain ⟨f, t, hfail, hremoved, howners⟩ := s.tracker.ownerOf_fail_of_kept u hkept
    unfold Session.takeFailure
    rw [hfail]
    split
    · rename_i hgone
      cases hgone
      exact absurd rfl (hremoved _)
    · rename_i hfailed
      cases hfailed
      exact h.of_kept (fun _ _ ha => ha) howners
  cases hgone : e.toStatus.saysGone with
  | false => exact hkept (Or.inl hgone)
  | true =>
    cases kind with
    | atom | container =>
      rw [s.takeFailure_of_gone u (by decide) (by decide) hgone]
      exact (h.forgetAtom (fun _ => rfl) u).forgetAll _
    | connection =>
      unfold Session.takeFailure
      rw [s.tracker.fail_connection_of_gone u hgone]
      exact (h.forgetConnection u).forgetAll _
    | external => exact hkept (Or.inr rfl)

/-! ## Messages -/

theorem tracker_ownerOf_flagEffects (s : Session) (u v : Uri) (m : Message) :
    (s.flagEffects u m).tracker.ownerOf v = s.tracker.ownerOf v := by
  unfold flagEffects
  split
  · exact Tracker.ownerOf_invalidatePetriNet ..
  · rfl

theorem ownerOf_notice (t : Tracker) (m : Message) (v : Uri) :
    (t.notice m).ownerOf v = t.ownerOf v := by
  unfold Tracker.notice
  split
  · exact (Tracker.allowsFlags_ownerOf v).participants t m
  · rfl

theorem atom_take (c : Connection) (m : Message) : (c.take m).atom = c.atom := by
  unfold Connection.take
  split <;> rfl

/-- A message of a known connection changes no owner. -/
theorem Owned.admitMessage (h : s.Owned) {u : Uri} {c : Connection}
    (hc : s.connections.get? u = some c) (m : Message) : (s.admitMessage u m).Owned := by
  have htaken := s.get?_takeMessage u
  simp only [Session.takeMessage, UriMap.contains, hc, Option.isSome_some, if_true] at htaken
  refine h.of_kept (fun v a ha => ?_) fun v => ?_
  · unfold ownerOf at ha ⊢
    rw [htaken v m] at ha
    split at ha
    · rename_i e
      subst e
      simpa [Connection.hear, hc, atom_take] using ha
    · exact ha
  · cases hm : c.store.get? m.uri with
    | none =>
      rw [admitMessage_of_new hc hm, tracker_ownerOf_flagEffects]
      exact ownerOf_notice ..
    | some stored =>
      rw [admitMessage_of_known hc hm]
      exact ownerOf_notice ..

/-- A message that makes its connection binds it to the same atom. -/
theorem Owned.takeMessage (h : s.Owned) (u : Uri) (m : Message) : (s.takeMessage u m).Owned := by
  unfold Session.takeMessage UriMap.contains
  cases hc : s.connections.get? u with
  | some c => exact h.admitMessage hc m
  | none =>
    simp only [Option.isSome_none, Bool.false_eq_true, if_false]
    rw [openConnection_eq]
    cases Connection.ofMessage? m with
    | none => exact h
    | some c =>
      have hopened : ({ s with
          connections := s.connections.insert u c
          tracker := s.tracker.assignOwner u c.atom } : Session).Owned := by
        rw [owned_iff] at h ⊢
        intro v a ha
        show (s.tracker.assignOwner u c.atom).ownerOf v = some a
        rw [Tracker.ownerOf_assignOwner]
        unfold ownerOf at ha
        simp only [UriMap.get?_insert] at ha
        split at ha
        · exact (if_pos ‹_›).trans ha
        · exact (if_neg ‹_›).trans (h v a ha)
      exact hopened.admitMessage (UriMap.get?_insert .. |>.trans (if_pos rfl)) m

theorem Owned.takeMessages (h : s.Owned) (u : Uri) (ms : List Message) :
    (ms.foldl (fun s m => s.takeMessage u m) s).Owned := by
  induction ms generalizing s with
  | nil => exact h
  | cons m ms ih => exact ih (h.takeMessage u m)

theorem tracker_ownerOf_takeAcknowledgement (s : Session) (u event : Uri) (remote : Option Uri)
    (v : Uri) :
    (s.takeAcknowledgement u event remote).tracker.ownerOf v = s.tracker.ownerOf v := by
  unfold takeAcknowledgement
  split
  · rfl
  · split
    · rfl
    · split
      · rfl
      · exact tracker_ownerOf_flagEffects ..

theorem atom_acknowledge (c : Connection) (event : Uri) (remote : Option Uri) :
    (c.acknowledge event remote).atom = c.atom := by
  unfold Connection.acknowledge
  split <;> rfl

/-- An event that changes the connection it is addressed to keeps its atom. -/
theorem ownerOf_apply_of_kept (s : Session) {e : Event} {u : Uri} (h : e.addressee? = some u)
    (hatom : ∀ c, s.connections.get? u = some c →
      (Connection.after (some c) e).map (·.atom) = some c.atom)
    (hunknown : Connection.after none e = none) (v : Uri) :
    (s.apply e).ownerOf v = s.ownerOf v := by
  unfold ownerOf
  rw [s.get?_apply_of_addressee h]
  split
  · rename_i e
    subst e
    cases hc : s.connections.get? v with
    | none => rw [hunknown]
    | some c => exact hatom c hc
  · rfl

/-! ## Data of connections -/

/-- A document of a connection names its atom, unless the client knows it already. -/
theorem ownerOf_mergeConnection (s : Session) (d : ConnectionDocument) (v : Uri) :
    (s.mergeConnection d).ownerOf v =
      (s.ownerOf v).or (if d.uri = v then d.owner? else none) := by
  unfold ownerOf
  by_cases e : d.uri = v
  · subst e
    rw [if_pos rfl]
    unfold mergeConnection
    cases hd : d.owner? with
    | none => simp
    | some atom =>
      cases hc : s.connections.get? d.uri with
      | none => simp [Connection.fresh]
      | some c => by_cases hstate : c.lifecycle.state = d.state <;> simp [hc, hstate]
  · rw [(s.placed_mergeConnection d v).2 e, if_neg e, Option.or_none]

theorem ownerAmong_cons (d : ConnectionDocument) (ds : List ConnectionDocument) (v : Uri) :
    ConnectionDocument.ownerAmong (d :: ds) v =
      (if d.uri = v then d.owner? else none).or (ConnectionDocument.ownerAmong ds v) := by
  unfold ConnectionDocument.ownerAmong
  rw [List.findSome?_cons]
  split <;> rename_i h <;> rw [h]
  · rfl
  · rfl

/-- Listed connections keep the atom that the client knows or that their documents name, and are
all bound to the container's atom. -/
theorem ownerOf_addListed_foldl (atom v : Uri) (data : List ConnectionDocument) (s : Session) :
    (data.foldl (addListed atom) s).ownerOf v =
        (s.ownerOf v).or (ConnectionDocument.ownerAmong data v) ∧
      (data.foldl (addListed atom) s).tracker.ownerOf v =
        if v ∈ data.map (·.uri) then some atom else s.tracker.ownerOf v := by
  induction data generalizing s with
  | nil => simp [ConnectionDocument.ownerAmong]
  | cons d ds ih =>
    obtain ⟨hsession, htracker⟩ := ih (addListed atom s d)
    have hmerged : (addListed atom s d).ownerOf v =
        (s.ownerOf v).or (if d.uri = v then d.owner? else none) := ownerOf_mergeConnection s d v
    have hbound : (addListed atom s d).tracker.ownerOf v =
        if v = d.uri then some atom else s.tracker.ownerOf v := by
      show ((s.mergeConnection d).tracker.assignOwner d.uri atom).ownerOf v = _
      rw [tracker_mergeConnection, Tracker.ownerOf_assignOwner]
    rw [List.foldl_cons, hsession, htracker, hmerged, hbound, ownerAmong_cons, Option.or_assoc]
    refine ⟨rfl, ?_⟩
    by_cases hv : v ∈ ds.map (·.uri) <;> by_cases e : v = d.uri <;> simp [hv, e]

/-- What the container of an atom says about owners, if it is being fetched. -/
theorem owners_takeContainer {atom : Uri}
    (hflight : s.tracker.inFlight (.resource .container atom) = true)
    (data : List ConnectionDocument) (v : Uri) :
    (s.takeContainer atom data).ownerOf v =
        (s.ownerOf v).or (ConnectionDocument.ownerAmong data v) ∧
      (s.takeContainer atom data).tracker.ownerOf v =
        if v ∈ data.map (·.uri) then some atom else s.tracker.ownerOf v := by
  have hloading : s.tracker.isIn .loading .container atom = true := hflight
  unfold takeContainer
  split
  · rename_i t ht
    simp [Tracker.completeContainer, Tracker.complete, hloading] at ht
  · rename_i t ht
    obtain ⟨hsession, htracker⟩ := ownerOf_addListed_foldl atom v data { s with tracker := t }
    refine ⟨hsession, htracker.trans ?_⟩
    split
    · rfl
    · rename_i hv
      rw [show t = (s.tracker.completeContainer atom _).2 from (congrArg Prod.snd ht).symm]
      refine s.tracker.ownerOf_completeContainer_of_unlisted v atom fun listed hlisted e => hv ?_
      obtain ⟨d, hd, rfl⟩ := List.mem_map.1 hlisted
      exact e ▸ List.mem_map_of_mem hd

/-- What a document of a connection says about owners, if it is being fetched. -/
theorem owners_takeConnection {d : ConnectionDocument}
    (hflight : s.tracker.inFlight (.resource .connection d.uri) = true) (v : Uri) :
    (s.takeConnection d).ownerOf v = (s.ownerOf v).or (if d.uri = v then d.owner? else none) ∧
      (s.takeConnection d).tracker.ownerOf v =
        (if d.uri = v then d.owner? else none).or (s.tracker.ownerOf v) := by
  have hloading : s.tracker.isIn .loading .connection d.uri = true := hflight
  unfold takeConnection
  split
  · rename_i t ht
    simp [Tracker.complete, hloading] at ht
  · rename_i t ht
    have hcompleted : t.ownerOf v = s.tracker.ownerOf v := by
      rw [← s.tracker.ownerOf_complete d.uri v .connection none, ht]
    refine ⟨ownerOf_mergeConnection _ d v, ?_⟩
    rw [tracker_mergeConnection]
    cases d.owner? with
    | none => simpa using hcompleted
    | some a =>
      by_cases e : d.uri = v
      · simp [e]
      · simpa [e, Ne.symm e] using hcompleted

theorem takeContainer_of_idle {atom : Uri}
    (h : s.tracker.inFlight (.resource .container atom) = false)
    (data : List ConnectionDocument) : s.takeContainer atom data = s := by
  unfold takeContainer
  rw [Tracker.completeContainer_of_idle h]

theorem takeConnection_of_idle {d : ConnectionDocument}
    (h : s.tracker.inFlight (.resource .connection d.uri) = false) : s.takeConnection d = s := by
  unfold takeConnection
  rw [Tracker.complete_of_idle h]

/-- A container keeps the owners in agreement exactly if every connection that it lists is the
container's atom's, for the client too. -/
theorem owned_takeContainer_iff (h : s.Owned) (atom : Uri) (data : List ConnectionDocument) :
    (s.takeContainer atom data).Owned ↔
      (Event.containerLoaded atom data).AgreesOnOwners s := by
  cases hflight : s.tracker.inFlight (.resource .container atom) with
  | false =>
    rw [takeContainer_of_idle hflight]
    exact iff_of_true h fun hloading => absurd (hflight.symm.trans hloading) Bool.false_ne_true
  | true =>
    have howners := owners_takeContainer hflight data
    rw [owned_iff] at h ⊢
    simp only [fun v => (howners v).1, fun v => (howners v).2]
    constructor
    · rintro hafter - d hd a ha
      have hbound := hafter d.uri a ha
      rw [if_pos (List.mem_map_of_mem hd)] at hbound
      exact (Option.some.inj hbound).symm
    · intro hagree v a ha
      by_cases hv : v ∈ data.map (·.uri)
      · obtain ⟨d, hd, rfl⟩ := List.mem_map.1 hv
        rw [if_pos hv, hagree hflight d hd a ha]
      · have hnone : ConnectionDocument.ownerAmong data v = none := by
          refine List.findSome?_eq_none_iff.2 fun d hd => if_neg fun e => hv ?_
          exact e ▸ List.mem_map_of_mem hd
        rw [hnone, Option.or_none] at ha
        rw [if_neg hv]
        exact h v a ha

/-- A document of a connection keeps the owners in agreement exactly if its socket names the atom
that the client knows, if both are there. -/
theorem owned_takeConnection_iff (h : s.Owned) (d : ConnectionDocument) :
    (s.takeConnection d).Owned ↔ (Event.connectionLoaded d).AgreesOnOwners s := by
  cases hflight : s.tracker.inFlight (.resource .connection d.uri) with
  | false =>
    rw [takeConnection_of_idle hflight]
    exact iff_of_true h fun hloading => absurd (hflight.symm.trans hloading) Bool.false_ne_true
  | true =>
    have howners := owners_takeConnection hflight
    rw [owned_iff] at h ⊢
    simp only [fun v => (howners v).1, fun v => (howners v).2]
    constructor
    · rintro hafter - a b ha hb
      have hbound := hafter d.uri a (by rw [ha, Option.some_or])
      rw [if_pos rfl, hb, Option.some_or, Option.some.injEq] at hbound
      exact hbound.symm
    · intro hagree v a ha
      by_cases e : d.uri = v
      · subst e
        rw [if_pos rfl] at ha ⊢
        cases hd : d.owner? with
        | none =>
          rw [hd, Option.or_none] at ha
          exact h _ a ha
        | some b =>
          cases howner : s.ownerOf d.uri with
          | none => simpa [howner, hd] using ha
          | some a' =>
            rw [howner, Option.some_or, Option.some.injEq] at ha
            rw [← ha, hagree hflight a' b howner hd, Option.some_or]
      · rw [if_neg e, Option.or_none] at ha
        rw [if_neg e, Option.none_or]
        exact h v a ha

/-! ## Steps and runs -/

/-- A step of the client keeps the owners in agreement exactly if its data do. -/
theorem owned_move_iff (h : s.Owned) {m : Move} (hm : m.ByClient) :
    (s.move m).Owned ↔ m.AgreesOnOwners s := by
  have htrivial {t : Session} (ht : t.Owned) : t.Owned ↔ True := iff_of_true ht trivial
  cases hm with
  | flag kind u => exact htrivial (h.of_kept (fun _ _ ha => ha) fun v => by simp [move])
  | claim kind u => exact htrivial (h.of_kept (fun _ _ ha => ha) fun v => by simp [move])
  | claimPage u => exact htrivial (h.of_kept (fun _ _ ha => ha) fun v => by simp [move])
  | claimDataSet u d => exact htrivial (h.of_kept (fun _ _ ha => ha) fun v => by simp [move])
  | event e =>
    let t : Session := { s with version := s.version + 1 }
    have ht : t.Owned := h
    have hkept (u : Uri) (hu : e.addressee? = some u)
        (hatom : ∀ c, s.connections.get? u = some c →
          (Connection.after (some c) e).map (·.atom) = some c.atom)
        (hunknown : Connection.after none e = none)
        (htracker : ∀ v, (s.apply e).tracker.ownerOf v = s.tracker.ownerOf v) :
        (s.apply e).Owned :=
      h.of_kept (fun v a ha => by rwa [s.ownerOf_apply_of_kept hu hatom hunknown] at ha) htracker
    cases e with
    | atomLoaded data =>
      refine htrivial (?_ : (t.takeAtom data).Owned)
      have hcompleted := fun v => t.tracker.ownerOf_complete data.uri v .atom none
      unfold takeAtom
      split
      · exact ht
      · rename_i t' ht'
        rw [ht'] at hcompleted
        split
        · exact ht.forgetAtom hcompleted data.uri
        · exact ht.of_kept (fun _ _ ha => ha) hcompleted
    | atomLoadFailed u e => exact htrivial (ht.takeFailure .atom u e)
    | containerLoadFailed u e => exact htrivial (ht.takeFailure .container u e)
    | connectionLoadFailed u e => exact htrivial (ht.takeFailure .connection u e)
    | atomDeactivated u | atomActivated u => exact htrivial ht
    | atomDeleted u => exact htrivial (ht.forgetAtom (fun _ => rfl) u)
    | containerLoaded atom data => exact owned_takeContainer_iff ht atom data
    | connectionLoaded d => exact owned_takeConnection_iff ht d
    | messagesLoaded u page =>
      exact htrivial ((ht.takeMessages u (Message.chronological page.messages)).of_kept
        (fun _ _ ha => ha) fun v => Tracker.ownerOf_completePage ..)
    | messagesLoadFailed u messages nextPage e =>
      exact htrivial (ht.of_kept (fun _ _ ha => ha) fun v => Tracker.ownerOf_failPage ..)
    | messageReceived u m => exact htrivial (ht.takeMessage u m)
    | messageSent u m =>
      exact htrivial (hkept u rfl (fun _ _ => rfl) rfl fun _ => rfl)
    | sendFailed u event =>
      exact htrivial (hkept u rfl (fun _ _ => rfl) rfl fun _ => rfl)
    | sendSucceeded u event remote =>
      exact htrivial (hkept u rfl (fun c _ => congrArg some (atom_acknowledge c event remote)) rfl
        fun v => t.tracker_ownerOf_takeAcknowledgement u event remote v)
    | agreementReconciled u view fetched =>
      exact htrivial (hkept u rfl (fun _ _ => rfl) rfl fun v => Tracker.ownerOf_completeDataSet ..)
    | agreementFailed u =>
      exact htrivial (ht.of_kept (fun _ _ ha => ha) fun v => Tracker.ownerOf_failDataSet ..)
    | loggedOut => exact htrivial fun _ _ hu => absurd hu nofun

end

/-- Along a run of the client the owners agree at every point exactly if every step's data do. -/
theorem owned_throughout_iff {ms : List Move} (hms : ∀ m ∈ ms, m.ByClient) {s : Session}
    (hs : s.Owned) :
    (∀ pre, pre <+: ms → (s.moves pre).Owned) ↔
      s.Throughout (fun s m => m.AgreesOnOwners s) ms := by
  induction ms generalizing s with
  | nil =>
    refine iff_of_true (fun pre hpre => ?_) trivial
    rw [List.prefix_nil.1 hpre]
    exact hs
  | cons m ms ih =>
    rw [List.forall_mem_cons] at hms
    constructor
    · intro h
      have hafter : (s.move m).Owned := h [m] ⟨ms, rfl⟩
      refine ⟨(owned_move_iff hs hms.1).1 hafter, (ih hms.2 hafter).1 fun pre hpre => ?_⟩
      exact h (m :: pre) ((List.prefix_cons_inj m).2 hpre)
    · rintro ⟨hm, hrest⟩ pre hpre
      have hafter := (owned_move_iff hs hms.1).2 hm
      cases pre with
      | nil => exact hs
      | cons m' pre =>
        obtain ⟨rfl, hrest'⟩ := List.cons_prefix_cons.1 hpre
        exact (ih hms.2 hafter).2 hrest pre hrest'

end Session

end Parley
