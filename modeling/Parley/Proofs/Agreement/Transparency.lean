/-
Resolving entries with a store at hand, and without. The events asked for before make no difference,
as they are kept under the names they were asked for. A store also answers under the remote names
of its messages, and there it is no cache: the own copy of an event that is addressed to the own
atom is found again under the name of its counterpart, so a chain of copies ends in a cycle where
the source has the counterpart.

The proof reads a resolution as a walk over a fixed look-up. Two look-ups give the same walks if
they agree on every name that a walk may reach, where it is as good to lead straight back to the
name on both sides. The converse takes at most three steps: a name that the two look-ups do not
agree on shows in a walk from it, or from a message that leads to it.
-/
import Parley.Agreement.Reconcile
import Parley.Proofs.Store.Reachable

namespace Parley

/-- What is known under a name. -/
abbrev Lookup := Uri → Except AgreementError Message

namespace Lookup

/-- What a source answers about an event. -/
def ofSource (source : Inquiry.Source) (ownAtom : Uri) : Lookup := fun u =>
  source (.event ownAtom u)

/-- What a store has, and what a look-up knows of the rest. -/
def behind (s : Store) (known : Lookup) : Lookup := fun u =>
  match s.find? u with
  | some m => .ok m
  | none => known u

/-- What was asked for before, and what a look-up knows of the rest. -/
def remembering (cache : UriMap Message) (known : Lookup) : Lookup := fun u =>
  match cache.get? u with
  | some m => .ok m
  | none => known u

/-- An answer that is kept makes no difference. -/
theorem remembering_insert {cache : UriMap Message} {known : Lookup} {u : Uri} {m : Message}
    (hu : cache.get? u = none) (hm : known u = .ok m) :
    remembering (cache.insert u m) known = remembering cache known := by
  funext v
  unfold remembering
  rw [UriMap.get?_insert]
  by_cases hvu : v = u
  · subst hvu
    rw [if_pos rfl, hu, hm]
  · rw [if_neg hvu]

/-- The copy known under a name leads on to another name. -/
def Leads (known : Lookup) (ownAtom u v : Uri) : Prop :=
  ∃ m, known u = .ok m ∧ m.nextCopy? ownAtom = some v

/-- The names that a walk over a look-up can reach, from a name with a message. -/
def Wanted (known : Lookup) (ownAtom u : Uri) : Prop :=
  (∃ m, known u = .ok m) ∨ ∃ v, known.Leads ownAtom v u

/-! ## Walks -/

section

variable (ownAtom : Uri) (depth : Nat) (known : Lookup) (start : Uri)

/-- Follows the copies of an entry over a look-up. -/
def walk : (steps : Nat) → (head : Option Uri) → (current : Uri) → (visited : List Uri) →
    Except AgreementError ChainEnds
  | 0, _, _, _ => .error (.depthExceeded start depth)
  | steps + 1, head, current, visited =>
    if current ∈ visited then .error (.cycle start)
    else
      match known current with
      | .error e => .error e
      | .ok m =>
        match m.nextCopy? ownAtom with
        | some remote => walk steps (head.or (some m.uri)) remote (current :: visited)
        | none => .ok ⟨head.getD m.uri, m.uri⟩

/-- A walk that is led back to a name has no head in its result. -/
theorem walk_revisit (steps : Nat) (head : Option Uri) {u : Uri} {visited : List Uri}
    (hu : u ∈ visited) :
    walk ownAtom depth known start steps head u visited =
      .error (if steps = 0 then .depthExceeded start depth else .cycle start) := by
  cases steps with
  | zero => rfl
  | succ steps => simp [walk, hu]

end

/-- Look-ups that agree on a name, or lead both straight back to it, agree on it for a walk. -/
def AgreesAt (known known' : Lookup) (ownAtom u : Uri) : Prop :=
  known u = known' u ∨ known.Leads ownAtom u u ∧ known'.Leads ownAtom u u

/-- Look-ups that agree on every name that a walk can reach give the same walks. -/
theorem walk_congr {known known' : Lookup} {ownAtom : Uri}
    (h : ∀ u, known'.Wanted ownAtom u → AgreesAt known known' ownAtom u) (depth : Nat)
    (start : Uri) (steps : Nat) : ∀ (head : Option Uri) (u : Uri) (visited : List Uri),
      known'.Wanted ownAtom u →
        walk ownAtom depth known start steps head u visited =
          walk ownAtom depth known' start steps head u visited := by
  induction steps with
  | zero =>
    intro head u visited _
    rfl
  | succ steps ih =>
    intro head u visited hu
    by_cases hvisited : u ∈ visited
    · simp [walk, hvisited]
    · rcases h u hu with hsame | ⟨⟨m, hm, hback⟩, m', hm', hback'⟩
      · unfold walk
        rw [if_neg hvisited, if_neg hvisited, hsame]
        cases hm : known' u with
        | error e => rfl
        | ok m =>
          simp only
          cases hnext : m.nextCopy? ownAtom with
          | none => rfl
          | some v => exact ih _ v _ (Or.inr ⟨u, m, hm, hnext⟩)
      · -- both walks are at a name they have visited, whatever their heads are
        unfold walk
        rw [if_neg hvisited, if_neg hvisited, hm, hm']
        simp only [hback, hback']
        rw [walk_revisit _ _ _ _ _ _ List.mem_cons_self,
          walk_revisit _ _ _ _ _ _ List.mem_cons_self]

end Lookup

/-! ## A resolution is a walk -/

namespace Resolver

/-- The events asked for before are what the source answers about them. -/
def Remembered (cache : UriMap Message) (known : Lookup) : Prop :=
  ∀ u m, cache.get? u = some m → known u = .ok m

theorem remembered_empty (known : Lookup) : Remembered ∅ known := by
  intro u m h
  cases h

theorem Remembered.remembering_eq {cache : UriMap Message} {known : Lookup}
    (h : Remembered cache known) : Lookup.remembering cache known = known := by
  funext u
  unfold Lookup.remembering
  cases hu : cache.get? u with
  | none => rfl
  | some m => exact (h u m hu).symm

section

variable (r : Resolver) (source : Inquiry.Source)

/-- What a resolver knows of a name: what its store has, else what was asked for before, else what the
source answers. -/
def known (cache : UriMap Message) : Lookup :=
  .behind r.store (.remembering cache (.ofSource source r.ownAtom))

theorem known_of_found {cache : UriMap Message} {u : Uri} {m : Message}
    (h : (r.store.find? u).or (cache.get? u) = some m) : r.known source cache u = .ok m := by
  unfold known Lookup.behind Lookup.remembering
  cases hs : r.store.find? u with
  | some n =>
    rw [hs, Option.some_or] at h
    cases h
    rfl
  | none =>
    rw [hs, Option.none_or] at h
    simp only [h]

theorem known_of_missing {cache : UriMap Message} {u : Uri}
    (h : (r.store.find? u).or (cache.get? u) = none) :
    r.known source cache u = source (.event r.ownAtom u) := by
  obtain ⟨hs, hc⟩ := Option.or_eq_none_iff.1 h
  unfold known Lookup.behind Lookup.remembering
  rw [hs, hc]
  rfl

/-- What is learnt from a question was known. -/
theorem known_insert {cache : UriMap Message} {u : Uri} {m : Message}
    (h : (r.store.find? u).or (cache.get? u) = none) (hm : source (.event r.ownAtom u) = .ok m) :
    r.known source (cache.insert u m) = r.known source cache := by
  unfold known
  rw [Lookup.remembering_insert (Option.or_eq_none_iff.1 h).2 hm]

/-- What a look-up does: it finds the message, or asks for it in vain, or asks and keeps it. -/
inductive LooksUp (u : Uri) (cache : UriMap Message) : Prop where
  | found (m : Message) (hm : (r.store.find? u).or (cache.get? u) = some m)
      (hrun : (r.lookUp u cache).run source = (.ok m, cache))
      (hasked : (r.lookUp u cache).questions source = [])
  | failed (e : AgreementError) (hmissing : (r.store.find? u).or (cache.get? u) = none)
      (he : source (.event r.ownAtom u) = .error e)
      (hrun : (r.lookUp u cache).run source = (.error e, cache))
      (hasked : (r.lookUp u cache).questions source = [.event r.ownAtom u])
  | learnt (m : Message) (hmissing : (r.store.find? u).or (cache.get? u) = none)
      (hm : source (.event r.ownAtom u) = .ok m)
      (hrun : (r.lookUp u cache).run source = (.ok m, cache.insert u m))
      (hasked : (r.lookUp u cache).questions source = [.event r.ownAtom u])

theorem looksUp (u : Uri) (cache : UriMap Message) : r.LooksUp source u cache := by
  cases h : (r.store.find? u).or (cache.get? u) with
  | some m =>
    exact .found m h (by simp only [lookUp, h, Inquiry.run])
      (by simp only [lookUp, h, Inquiry.questions])
  | none =>
    cases ha : source (.event r.ownAtom u) with
    | error e =>
      exact .failed e h ha (by simp only [lookUp, h, Inquiry.run, ha])
        (by simp only [lookUp, h, Inquiry.questions, ha])
    | ok m =>
      exact .learnt m h ha (by simp only [lookUp, h, Inquiry.run, ha])
        (by simp only [lookUp, h, Inquiry.questions, ha])

/-- A look-up finds what is known, and what it has learnt was known. -/
theorem run_lookUp (u : Uri) (cache : UriMap Message) :
    ∃ cache', (r.lookUp u cache).run source = (r.known source cache u, cache') ∧
      r.known source cache' = r.known source cache := by
  cases r.looksUp source u cache with
  | found m hm hrun _ =>
    rw [r.known_of_found source hm]
    exact ⟨cache, hrun, rfl⟩
  | failed e hmissing he hrun _ =>
    rw [r.known_of_missing source hmissing, he]
    exact ⟨cache, hrun, rfl⟩
  | learnt m hmissing hm hrun _ =>
    rw [r.known_of_missing source hmissing, hm]
    exact ⟨cache.insert u m, hrun, r.known_insert source hmissing hm⟩

/-- Following copies walks over what is known. -/
theorem run_follow (start : Uri) (steps : Nat) :
    ∀ (head : Option Uri) (u : Uri) (visited : List Uri) (cache : UriMap Message),
      ((r.follow start steps head u visited cache).run source).1 =
        (r.known source cache).walk r.ownAtom r.maxDepth start steps head u visited := by
  induction steps with
  | zero =>
    intro head u visited cache
    rfl
  | succ steps ih =>
    intro head u visited cache
    obtain ⟨cache', hrun, hknown⟩ := r.run_lookUp source u cache
    unfold follow Lookup.walk
    split
    · rfl
    · rw [Inquiry.run_bind, hrun]
      cases r.known source cache u with
      | error e => rfl
      | ok m =>
        simp only
        cases m.nextCopy? r.ownAtom with
        | none => rfl
        | some v => exact (ih _ v _ cache').trans (by rw [hknown])

/-- Where what was asked for before is what the source has, it only saves questions. -/
theorem run_resolve {cache : UriMap Message}
    (h : Remembered cache (.ofSource source r.ownAtom)) (u : Uri) :
    ((r.resolve u cache).run source).1 =
      Lookup.walk r.ownAtom r.maxDepth (.behind r.store (.ofSource source r.ownAtom)) u
        r.maxDepth none u [] := by
  rw [← h.remembering_eq]
  exact r.run_follow source u r.maxDepth none u [] cache

end

end Resolver

/-! ## Stores that hold what the source has -/

/-- The source has each event under its own name, and each stored message as it is stored. -/
structure Store.CopiesFrom (s : Store) (known : Lookup) : Prop where
  reachable : s.Reachable
  named : ∀ u m, known u = .ok m → m.uri = u
  stored : ∀ m ∈ s.toList, known m.uri = .ok m

/-- A walk from a name with a message goes the same way with the store and without. -/
def Store.WalksAlike (s : Store) (known : Lookup) (ownAtom : Uri) : Prop :=
  ∀ depth u m, known u = .ok m →
    Lookup.walk ownAtom depth (.behind s known) u depth none u [] =
      Lookup.walk ownAtom depth known u depth none u []

/-- The store answers to a wanted name with the message of that name, or else the message that it
answers with and the one that the source has lead both straight back to the name. -/
def Store.Unshadowed (s : Store) (known : Lookup) (ownAtom : Uri) : Prop :=
  ∀ u m, known.Wanted ownAtom u → s.find? u = some m →
    m.uri = u ∨ m.nextCopy? ownAtom = some u ∧ known.Leads ownAtom u u

namespace Store.CopiesFrom

variable {s : Store} {known : Lookup} {ownAtom : Uri}

theorem behind_of_find? (known : Lookup) {u : Uri} {m : Message} (hm : s.find? u = some m) :
    Lookup.behind s known u = .ok m := by
  unfold Lookup.behind
  rw [hm]

theorem known_of_find? (h : s.CopiesFrom known) {u : Uri} {m : Message} (hm : s.find? u = some m)
    (hu : m.uri = u) : known u = .ok m := by
  rw [← hu]
  exact h.stored m (h.reachable.coherent.of_find? hm).1

theorem agreesAt (h : s.CopiesFrom known) (hun : s.Unshadowed known ownAtom) {u : Uri}
    (hu : known.Wanted ownAtom u) : Lookup.AgreesAt (.behind s known) known ownAtom u := by
  cases hm : s.find? u with
  | none =>
    refine Or.inl ?_
    unfold Lookup.behind
    rw [hm]
  | some m =>
    have hbehind := behind_of_find? known hm
    rcases hun u m hu hm with hown | ⟨hback, hleads⟩
    · exact Or.inl (hbehind.trans (h.known_of_find? hm hown).symm)
    · exact Or.inr ⟨⟨m, hbehind, hback⟩, hleads⟩

/-- A message found under another name than its own has it as its remote name, and leads back to it
or nowhere. -/
theorem shadow (h : s.CopiesFrom known) (ownAtom : Uri) {u : Uri} {m : Message}
    (hm : s.find? u = some m) (hne : m.uri ≠ u) :
    known m.uri = .ok m ∧ Lookup.behind s known m.uri = .ok m ∧
      (m.nextCopy? ownAtom = none ∨ m.nextCopy? ownAtom = some u) := by
  have hs := h.reachable.coherent
  obtain ⟨hmem, hname⟩ := hs.of_find? hm
  have hremote : m.remoteUri = some u := (Message.hasName_iff.1 hname).resolve_left hne
  refine ⟨h.stored m hmem, behind_of_find? known (hs.find?_uri hmem), ?_⟩
  cases hnext : m.nextCopy? ownAtom with
  | none => exact Or.inl rfl
  | some v =>
    obtain ⟨-, -, hv⟩ := Message.nextCopy?_eq_some_iff.1 hnext
    cases hremote.symm.trans hv
    exact Or.inr rfl

/-- Where walks go alike, a message found under another name, of which the source has a message,
leads back to it, and so does the one of the source. -/
theorem leads_back (h : s.CopiesFrom known) (halike : s.WalksAlike known ownAtom) {u : Uri}
    {m m' : Message} (hm : s.find? u = some m) (hne : m.uri ≠ u) (hm' : known u = .ok m') :
    m.nextCopy? ownAtom = some u ∧ m'.nextCopy? ownAtom = some u := by
  obtain ⟨hknown, hbehind, hshadow⟩ := h.shadow ownAtom hm hne
  have hu := behind_of_find? known hm
  have hm'u : m'.uri = u := h.named u m' hm'
  have hone := halike 1 u m' hm'
  rcases hshadow with hnext | hnext
  · -- in one step, the walk with the store ends at the message found, and the other one does not
    have hends : Lookup.walk ownAtom 1 (.behind s known) u 1 none u [] = .ok ⟨m.uri, m.uri⟩ := by
      simp [Lookup.walk, hu, hnext]
    rw [hends] at hone
    cases hnext' : m'.nextCopy? ownAtom with
    | none => simp [Lookup.walk, hm', hnext', hm'u, hne] at hone
    | some v => simp [Lookup.walk, hm', hnext'] at hone
  · refine ⟨hnext, ?_⟩
    cases hnext' : m'.nextCopy? ownAtom with
    | none => simp [Lookup.walk, hu, hm', hnext, hnext'] at hone
    | some v =>
      by_cases hvu : v = u
      · rw [hvu]
      exfalso
      -- in two steps, the walk with the store is back at the name, and the other one is beyond it
      have hcycle : Lookup.walk ownAtom 2 (.behind s known) u 2 none u [] = .error (.cycle u) := by
        simp [Lookup.walk, hu, hnext]
      have htwo := (halike 2 u m' hm').symm.trans hcycle
      cases hw : known v with
      | ok m'' =>
        cases hnext'' : m''.nextCopy? ownAtom <;>
          simp [Lookup.walk, hm', hnext', hvu, hw, hnext''] at htwo
      | error e =>
        have he : e = .cycle u := by
          simpa [Lookup.walk, hm', hnext', hvu, hw] using htwo
        have hvm : v ≠ m.uri := by
          rintro rfl
          rw [hknown] at hw
          cases hw
        -- the same failure ends the walk from the message found, which is another cycle
        have hcycle' : Lookup.walk ownAtom 3 (.behind s known) m.uri 3 none m.uri [] =
            .error (.cycle m.uri) := by
          simp [Lookup.walk, hbehind, hu, hnext, Ne.symm hne]
        have hthree := (halike 3 m.uri m hknown).symm.trans hcycle'
        have he' : e = .cycle m.uri := by
          simpa [Lookup.walk, hknown, hnext, hm', hnext', hvu, hvm, hw, Ne.symm hne] using hthree
        cases he.symm.trans he'
        exact hne rfl

theorem unshadowed (h : s.CopiesFrom known) (halike : s.WalksAlike known ownAtom) :
    s.Unshadowed known ownAtom := by
  intro u m hu hm
  by_cases hne : m.uri = u
  · exact Or.inl hne
  refine Or.inr ?_
  cases hknown : known u with
  | ok m' =>
    obtain ⟨hnext, hnext'⟩ := h.leads_back halike hm hne hknown
    exact ⟨hnext, m', hknown, hnext'⟩
  | error e =>
    obtain ⟨m', hm'⟩ | ⟨v, m', hm', hlead⟩ := hu
    · rw [hknown] at hm'
      cases hm'
    exfalso
    have hvu : v ≠ u := by
      rintro rfl
      rw [hknown] at hm'
      cases hm'
    -- the message that leads to the name is the same with the store and without
    have hv : Lookup.behind s known v = .ok m' := by
      cases hx : s.find? v with
      | none =>
        unfold Lookup.behind
        rw [hx]
        exact hm'
      | some x =>
        by_cases hxv : x.uri = v
        · cases hm'.symm.trans (h.known_of_find? hx hxv)
          exact behind_of_find? known hx
        · obtain ⟨-, hback⟩ := h.leads_back halike hx hxv hm'
          cases hback.symm.trans hlead
          exact absurd rfl hvu
    have hbehind := behind_of_find? known hm
    have hfails (depth : Nat) :
        Lookup.walk ownAtom (depth + 2) known v (depth + 2) none v [] = .error e := by
      simp [Lookup.walk, hm', hlead, hknown, Ne.symm hvu]
    have htwo := (halike 2 v m' hm').trans (hfails 0)
    have hthree := (halike 3 v m' hm').trans (hfails 1)
    obtain ⟨-, -, hnext | hnext⟩ := h.shadow ownAtom hm hne
    · simp [Lookup.walk, hv, hlead, hbehind, hnext, Ne.symm hvu] at htwo
    · -- the failure would be that of two steps that are too few, and that of a cycle after three
      have hdeep : .depthExceeded v 2 = e := by
        simpa [Lookup.walk, hv, hlead, hbehind, hnext, Ne.symm hvu] using htwo
      have hcycle : .cycle v = e := by
        simpa [Lookup.walk, hv, hlead, hbehind, hnext, Ne.symm hvu] using hthree
      cases hdeep.trans hcycle.symm

theorem walksAlike_iff (h : s.CopiesFrom known) :
    s.WalksAlike known ownAtom ↔ s.Unshadowed known ownAtom := by
  constructor
  · exact h.unshadowed
  · intro hun depth u m hm
    exact Lookup.walk_congr (fun v hv => h.agreesAt hun hv) depth u depth none u []
      (Or.inl ⟨m, hm⟩)

end Store.CopiesFrom

/-! ## Resolving with the store and without -/

namespace Resolver

/-- For a store that holds what the source has, every entry that the source has is resolved as with
the empty store, at every depth and whatever was asked for before, exactly if no wanted name is
shadowed by a message that the store has under another one. -/
theorem resolves_alike_iff {s : Store} {source : Inquiry.Source} {ownAtom : Uri}
    (h : s.CopiesFrom (.ofSource source ownAtom)) :
    (∀ depth u m cache cache', source (.event ownAtom u) = .ok m →
      Remembered cache (.ofSource source ownAtom) → Remembered cache' (.ofSource source ownAtom) →
        ((resolve ⟨ownAtom, s, depth⟩ u cache).run source).1 =
          ((resolve ⟨ownAtom, .empty, depth⟩ u cache').run source).1) ↔
      s.Unshadowed (.ofSource source ownAtom) ownAtom := by
  rw [← h.walksAlike_iff]
  have hwith (depth : Nat) (u : Uri) {cache : UriMap Message}
      (hcache : Remembered cache (.ofSource source ownAtom)) :
      ((resolve ⟨ownAtom, s, depth⟩ u cache).run source).1 =
        Lookup.walk ownAtom depth (.behind s (.ofSource source ownAtom)) u depth none u [] :=
    run_resolve ⟨ownAtom, s, depth⟩ source hcache u
  -- behind the empty store, everything is known as the source has it
  have hwithout (depth : Nat) (u : Uri) {cache : UriMap Message}
      (hcache : Remembered cache (.ofSource source ownAtom)) :
      ((resolve ⟨ownAtom, .empty, depth⟩ u cache).run source).1 =
        Lookup.walk ownAtom depth (.ofSource source ownAtom) u depth none u [] :=
    run_resolve ⟨ownAtom, .empty, depth⟩ source hcache u
  constructor
  · intro halike depth u m hm
    have hempty := remembered_empty (.ofSource source ownAtom)
    exact (hwith depth u hempty).symm.trans
      ((halike depth u m ∅ ∅ hm hempty hempty).trans (hwithout depth u hempty))
  · intro halike depth u m cache cache' hm hcache hcache'
    exact (hwith depth u hcache).trans ((halike depth u m hm).trans (hwithout depth u hcache').symm)

/-! ## An own copy, and its counterpart -/

/-- The own copy of an event that is addressed to the own atom. -/
def ownCopy : Message :=
  { Message.chat ⟨"mine"⟩ .outgoing (References.none.insert .proposes ⟨"a"⟩) with
    remoteUri := some ⟨"theirs"⟩
    targetSocket := some ⟨"own#chat"⟩ }

/-- The copy of the event on the other side. -/
def counterpart : Message :=
  .chat ⟨"theirs"⟩ .incoming (References.none.insert .proposes ⟨"a"⟩)

/-- A source that has both copies. -/
def bothCopies : Inquiry.Source
  | .sets c => .error (.fetch c (some 404) "not found")
  | .event _ u =>
    if u = ⟨"mine"⟩ then .ok ownCopy
    else if u = ⟨"theirs"⟩ then .ok counterpart
    else .error (.fetch u (some 404) "not found")

theorem bothCopies_named (u : Uri) (m : Message)
    (h : Lookup.ofSource bothCopies ⟨"own"⟩ u = .ok m) : m.uri = u := by
  unfold Lookup.ofSource bothCopies at h
  simp only at h
  split at h
  · rename_i e
    cases h
    exact e.symm
  · split at h
    · rename_i e
      cases h
      exact e.symm
    · cases h

theorem copiesFrom_bothCopies {ms : List Message} (hms : (ms.map (·.uri)).Nodup)
    (h : ∀ m ∈ ms, m = ownCopy ∨ m = counterpart) :
    (Store.ofList ms).CopiesFrom (.ofSource bothCopies ⟨"own"⟩) := by
  refine ⟨Store.reachable_ofList ms, bothCopies_named, fun m hm => ?_⟩
  rcases h m ((Store.mem_ofList_iff hms).1 hm) with rfl | rfl <;> rfl

/-- A store with both copies resolves like the empty one, and a store with the own copy alone does
not. -/
theorem resolves_alike_iff_bothCopies :
    (Store.ofList [ownCopy, counterpart]).CopiesFrom (.ofSource bothCopies ⟨"own"⟩) ∧
      (Store.ofList [ownCopy]).CopiesFrom (.ofSource bothCopies ⟨"own"⟩) ∧
      ((resolve ⟨⟨"own"⟩, .ofList [ownCopy, counterpart], 8⟩ ⟨"mine"⟩ ∅).run bothCopies).1 =
        ((resolve ⟨⟨"own"⟩, .empty, 8⟩ ⟨"mine"⟩ ∅).run bothCopies).1 ∧
      ¬ (Store.ofList [ownCopy]).Unshadowed (.ofSource bothCopies ⟨"own"⟩) ⟨"own"⟩ := by
  have hboth : (Store.ofList [ownCopy, counterpart]).CopiesFrom (.ofSource bothCopies ⟨"own"⟩) :=
    copiesFrom_bothCopies (by decide) (by simp)
  have hone : (Store.ofList [ownCopy]).CopiesFrom (.ofSource bothCopies ⟨"own"⟩) :=
    copiesFrom_bothCopies (by decide) (by simp)
  have hempty := remembered_empty (.ofSource bothCopies ⟨"own"⟩)
  refine ⟨hboth, hone, (resolves_alike_iff hboth).2 ?_ 8 ⟨"mine"⟩ ownCopy ∅ ∅ rfl hempty hempty, ?_⟩
  · intro u m _ hm
    -- each of the two is found under its own name
    obtain ⟨hmem, hname⟩ := hboth.reachable.coherent.of_find? hm
    rcases Message.hasName_iff.1 hname with hu | hu
    · exact Or.inl hu
    · have hms : m = ownCopy ∨ m = counterpart := by
        simpa using (Store.mem_ofList_iff (by decide)).1 hmem
      rcases hms with rfl | rfl
      · cases hu
        exact absurd hm (by decide)
      · cases hu
  · intro hun
    have halike := (resolves_alike_iff hone).2 hun 8 ⟨"mine"⟩ ownCopy ∅ ∅ rfl hempty hempty
    cases halike

/-- With the own copy in the store, its counterpart is not found: under the counterpart's name the
store has the own copy again, and the entry fails with a cycle, where the source has none. -/
theorem stored_copy_hides_counterpart :
    (Store.ofList [ownCopy]).CopiesFrom (.ofSource bothCopies ⟨"own"⟩) ∧
      ((resolve ⟨⟨"own"⟩, .empty, 8⟩ ⟨"mine"⟩ ∅).run bothCopies).1 =
        .ok ⟨⟨"mine"⟩, ⟨"theirs"⟩⟩ ∧
      ((resolve ⟨⟨"own"⟩, .ofList [ownCopy], 8⟩ ⟨"mine"⟩ ∅).run bothCopies).1 =
        .error (.cycle ⟨"mine"⟩) :=
  ⟨copiesFrom_bothCopies (by decide) (by simp), by rfl, by rfl⟩

end Resolver

end Parley
