/-
Resolving an entry along its chain of copies. What is known under each name fixes the chain: the
first name is that of the entry, and each further one is the name that the message of the name
before leads on to. The first names are looked at in turn, up to the greatest number of copies, and
the first of them that stops decides: it was looked at before, or its message cannot be had, or the
message leads nowhere. A chain that closes just where looking ends is too deep rather than a cycle.

Looking at a name asks for its event if neither the store nor the events asked for before have it.
So no event is asked for twice, and a source whose answers vary does no more than one that always
gives the answers that were given.
-/
import Parley.Proofs.Agreement.Settlement
import Parley.Proofs.Agreement.Transparency
import Mathlib.Data.List.Nodup
import Mathlib.Logic.Function.Basic

namespace Parley

/-! ## Questions that are not repeated -/

namespace Inquiry

variable {α : Type}

/-- Sources that answer what one of them is asked in the same way are as good as each other. -/
theorem run_congr {source source' : Source} {i : Inquiry α}
    (h : ∀ q ∈ i.questions source, source q = source' q) :
    i.run source = i.run source' ∧ i.questions source = i.questions source' := by
  induction i with
  | done a => exact ⟨rfl, rfl⟩
  | ask q next ih =>
    have hq : source q = source' q := h q List.mem_cons_self
    obtain ⟨hrun, hquestions⟩ := ih (source q) fun q' hq' => h q' (List.mem_cons_of_mem q hq')
    unfold run questions
    rw [← hq]
    exact ⟨hrun, congrArg (q :: ·) hquestions⟩

/-- The inquiry asks nothing twice, whatever the answers. -/
def AsksOnce (i : Inquiry α) : Prop :=
  ∀ source, (i.questions source).Nodup

theorem AsksOnce.next {q : Question} {next : Except AgreementError q.Answer → Inquiry α}
    (h : (Inquiry.ask q next).AsksOnce) (answer : Except AgreementError q.Answer)
    (source : Source) :
    q ∉ (next answer).questions source ∧ ((next answer).questions source).Nodup := by
  have hasked := h (Function.update source q answer)
  unfold questions at hasked
  rw [Function.update_self, List.nodup_cons] at hasked
  -- the rest does not ask again, so it does not notice how the question would be answered
  have hsame : (next answer).questions (Function.update source q answer) =
      (next answer).questions source := by
    refine (run_congr fun q' hq' => ?_).2
    rw [Function.update_of_ne]
    rintro rfl
    exact hasked.1 hq'
  rwa [hsame] at hasked

/-- An inquiry that asks nothing twice goes as if the answers that are given were always the
same. -/
theorem AsksOnce.exists_answers {i : Inquiry α} (h : i.AsksOnce)
    (source : List Question → Source) (past : List Question) :
    ∃ answers : Source,
      i.runAfter source past = (i.run answers, past ++ i.questions answers) ∧
      ∀ before q, before ++ [q] <+: i.questions answers →
        answers q = source (past ++ before) q := by
  induction i generalizing past with
  | done a =>
    refine ⟨source past, by simp [runAfter, run, questions], fun before q hq => ?_⟩
    simp [questions] at hq
  | ask q next ih =>
    have hnext := h.next (source past q)
    obtain ⟨answers, hrun, hgiven⟩ := ih _ (fun s => (hnext s).2) (past ++ [q])
    have hother {q' : Question} (hne : q' ≠ q) :
        answers q' = Function.update answers q (source past q) q' :=
      (Function.update_of_ne hne _ _).symm
    have hunasked : ∀ q' ∈ (next (source past q)).questions answers,
        answers q' = Function.update answers q (source past q) q' := by
      intro q' hq'
      refine hother ?_
      rintro rfl
      exact (hnext answers).1 hq'
    obtain ⟨hsame, hasked⟩ := run_congr hunasked
    refine ⟨Function.update answers q (source past q), ?_, fun before q' hq' => ?_⟩
    · unfold runAfter run questions
      rw [Function.update_self, hrun, ← hsame, ← hasked, List.append_assoc]
      rfl
    · unfold questions at hq'
      rw [Function.update_self, ← hasked] at hq'
      cases before with
      | nil =>
        obtain ⟨rfl, -⟩ := List.cons_prefix_cons.1 hq'
        rw [Function.update_self, List.append_nil]
      | cons p before =>
        obtain ⟨rfl, hrest⟩ := List.cons_prefix_cons.1 hq'
        have hne : q' ≠ p := by
          rintro rfl
          exact (hnext answers).1 (hrest.subset (by simp))
        rw [← hother hne, hgiven before q' hrest, List.append_assoc]
        rfl

end Inquiry

/-! ## Chains of copies -/

namespace Lookup

section

variable (known : Lookup) (ownAtom start : Uri)

/-- The name that the message of a name is followed to. -/
def next? (u : Uri) : Option Uri :=
  (known u).toOption.bind (·.nextCopy? ownAtom)

/-- The names along the chain of an entry. -/
def nameAt? : Nat → Option Uri
  | 0 => some start
  | i + 1 => (nameAt? i).bind (known.next? ownAtom)

/-- How looking at one name of the chain ends the resolution, unless it goes on. -/
def stopAt? (i : Nat) : Option (Except AgreementError ChainEnds) :=
  (known.nameAt? ownAtom start i).bind fun u =>
    if ∃ j < i, known.nameAt? ownAtom start j = some u then some (.error (.cycle start))
    else
      match known u with
      | .error e => some (.error e)
      | .ok m =>
        if (m.nextCopy? ownAtom).isSome then none
        else some ((known start).map fun first => ⟨first.uri, m.uri⟩)

/-- The names that a walk looks at, in order. -/
def trail : (steps : Nat) → (current : Uri) → (visited : List Uri) → List Uri
  | 0, _, _ => []
  | steps + 1, u, visited =>
    if u ∈ visited then []
    else u :: (known.next? ownAtom u).elim [] fun v => trail steps v (u :: visited)

/-- A walk is at a place of the chain, and has visited the places before. -/
structure OnChain (i : Nat) (u : Uri) (visited : List Uri) : Prop where
  here : known.nameAt? ownAtom start i = some u
  before : ∀ v, v ∈ visited ↔ ∃ j < i, known.nameAt? ownAtom start j = some v

end

variable {known : Lookup} {ownAtom start u v : Uri} {i : Nat} {visited : List Uri}

theorem next?_of_ok {m : Message} (hm : known u = .ok m) :
    known.next? ownAtom u = m.nextCopy? ownAtom := by
  simp [next?, hm, Except.toOption]

theorem next?_of_error {e : AgreementError} (he : known u = .error e) :
    known.next? ownAtom u = none := by
  simp [next?, he, Except.toOption]

/-- A name is followed if its message is the own copy of an event addressed to the own atom, to the
remote name of the message. -/
theorem next?_eq_some_iff :
    known.next? ownAtom u = some v ↔
      ∃ m, known u = .ok m ∧
        m.direction = .outgoing ∧ m.recipient? = some ownAtom ∧ m.remoteUri = some v := by
  simp only [← Message.nextCopy?_eq_some_iff]
  cases hm : known u with
  | error e => simp [next?_of_error hm]
  | ok m => simp [next?_of_ok hm]

theorem onChain_start (known : Lookup) (ownAtom start : Uri) :
    known.OnChain ownAtom start 0 start [] :=
  ⟨rfl, by simp⟩

namespace OnChain

theorem next (h : known.OnChain ownAtom start i u visited)
    (hv : known.next? ownAtom u = some v) :
    known.OnChain ownAtom start (i + 1) v (u :: visited) where
  here := by
    unfold nameAt?
    rw [h.here]
    exact hv
  before w := by
    rw [List.mem_cons, h.before w]
    constructor
    · rintro (rfl | ⟨j, hj, hw⟩)
      · exact ⟨i, i.lt_succ_self, h.here⟩
      · exact ⟨j, Nat.lt_succ_of_lt hj, hw⟩
    · rintro ⟨j, hj, hw⟩
      rcases Nat.lt_succ_iff_lt_or_eq.1 hj with hj | rfl
      · exact Or.inr ⟨j, hj, hw⟩
      · exact Or.inl (Option.some.inj (hw.symm.trans h.here))

theorem stopAt?_eq (h : known.OnChain ownAtom start i u visited) :
    known.stopAt? ownAtom start i =
      if u ∈ visited then some (.error (.cycle start))
      else
        match known u with
        | .error e => some (.error e)
        | .ok m =>
          if (m.nextCopy? ownAtom).isSome then none
          else some ((known start).map fun first => ⟨first.uri, m.uri⟩) := by
  unfold stopAt?
  rw [h.here]
  simp only [Option.bind_some, h.before u]

/-- A walk goes on exactly if it is at a new name that leads to another. -/
theorem stopAt?_eq_none_iff (h : known.OnChain ownAtom start i u visited) :
    known.stopAt? ownAtom start i = none ↔
      u ∉ visited ∧ (known.next? ownAtom u).isSome = true := by
  rw [h.stopAt?_eq]
  by_cases hu : u ∈ visited
  · simp [hu]
  · cases hm : known u with
    | error e => simp [hu, next?_of_error hm]
    | ok m => simp [hu, next?_of_ok hm, Option.isSome_iff_ne_none]

end OnChain

/-- A walk ends as the first name that stops it says. -/
theorem walk_eq_findSome? (depth steps : Nat) : ∀ {i : Nat} {head : Option Uri} {u : Uri}
    {visited : List Uri}, known.OnChain ownAtom start i u visited →
      (∀ m, known u = .ok m → ∃ first, known start = .ok first ∧ first.uri = head.getD m.uri) →
        known.walk ownAtom depth start steps head u visited =
          ((List.range' i steps).findSome? (known.stopAt? ownAtom start)).getD
            (.error (.depthExceeded start depth)) := by
  -- on the steps left; the head is the name of the first message as soon as there is one
  induction steps with
  | zero =>
    intro i head u visited _ _
    rfl
  | succ steps ih =>
    intro i head u visited h hhead
    have hstop := h.stopAt?_eq
    unfold walk
    rw [List.range'_succ, List.findSome?_cons]
    by_cases hu : u ∈ visited
    · rw [if_pos hu] at hstop ⊢
      rw [hstop]
      rfl
    · rw [if_neg hu] at hstop ⊢
      cases hm : known u with
      | error e =>
        rw [hm] at hstop
        rw [hstop]
        rfl
      | ok m =>
        obtain ⟨first, hfirst, huri⟩ := hhead m hm
        rw [hm] at hstop
        cases hnext : m.nextCopy? ownAtom with
        | none =>
          simp only [hnext, hfirst] at hstop ⊢
          rw [hstop, ← huri]
          rfl
        | some v =>
          simp only [hnext, Option.isSome_some, if_true] at hstop ⊢
          rw [hstop]
          have hv : known.next? ownAtom u = some v :=
            next?_eq_some_iff.2 ⟨m, hm, Message.nextCopy?_eq_some_iff.1 hnext⟩
          refine ih (h.next hv) fun n _ => ⟨first, hfirst, ?_⟩
          rw [huri]
          cases head <;> rfl

/-! ## The names looked at -/

theorem not_mem_visited_of_mem_trail (steps : Nat) : ∀ {u : Uri} {visited : List Uri} {w : Uri},
    w ∈ known.trail ownAtom steps u visited → w ∉ visited := by
  induction steps with
  | zero =>
    intro u visited w hw
    cases hw
  | succ steps ih =>
    intro u visited w hw
    unfold trail at hw
    split at hw
    · cases hw
    · rename_i hu
      rcases List.mem_cons.1 hw with rfl | hw
      · exact hu
      · cases hv : known.next? ownAtom u with
        | none =>
          rw [hv] at hw
          cases hw
        | some v =>
          rw [hv] at hw
          exact fun hmem => ih hw (List.mem_cons_of_mem u hmem)

theorem trail_nodup (steps : Nat) : ∀ {u : Uri} {visited : List Uri},
    (known.trail ownAtom steps u visited).Nodup := by
  induction steps with
  | zero => exact List.nodup_nil
  | succ steps ih =>
    intro u visited
    unfold trail
    split
    · exact List.nodup_nil
    · cases known.next? ownAtom u with
      | none => exact List.nodup_singleton u
      | some v =>
        refine List.nodup_cons.2 ⟨fun hmem => ?_, ih⟩
        exact not_mem_visited_of_mem_trail steps hmem List.mem_cons_self

theorem length_trail_le (steps : Nat) : ∀ {u : Uri} {visited : List Uri},
    (known.trail ownAtom steps u visited).length ≤ steps := by
  induction steps with
  | zero => exact Nat.le_refl 0
  | succ steps ih =>
    intro u visited
    unfold trail
    split
    · exact Nat.zero_le _
    · cases known.next? ownAtom u with
      | none => exact Nat.succ_le_succ (Nat.zero_le steps)
      | some v => exact Nat.succ_le_succ ih

/-- The names looked at are those of the chain, up to the first that stops. -/
theorem mem_trail_iff (steps : Nat) : ∀ {i : Nat} {u : Uri} {visited : List Uri},
    known.OnChain ownAtom start i u visited → ∀ w,
      w ∈ known.trail ownAtom steps u visited ↔
        w ∉ visited ∧ ∃ k, i ≤ k ∧ k < i + steps ∧ known.nameAt? ownAtom start k = some w ∧
          ∀ j, i ≤ j → j < k → known.stopAt? ownAtom start j = none := by
  induction steps with
  | zero =>
    intro i u visited _ w
    simp only [trail, List.not_mem_nil, false_iff, not_and, not_exists]
    omega
  | succ steps ih =>
    intro i u visited h w
    have hgoes := h.stopAt?_eq_none_iff
    unfold trail
    by_cases hu : u ∈ visited
    · rw [if_pos hu]
      refine ⟨fun hw => absurd hw List.not_mem_nil, ?_⟩
      rintro ⟨hw, k, hik, -, hname, hbefore⟩
      rcases Nat.eq_or_lt_of_le hik with rfl | hlt
      · cases h.here.symm.trans hname
        exact absurd hu hw
      · exact absurd hu (hgoes.1 (hbefore i (Nat.le_refl i) hlt)).1
    · rw [if_neg hu, List.mem_cons]
      constructor
      · rintro (rfl | hw)
        · exact ⟨hu, i, Nat.le_refl i, by omega, h.here, fun j hij hji => by omega⟩
        · cases hv : known.next? ownAtom u with
          | none =>
            rw [hv] at hw
            cases hw
          | some v =>
            rw [hv] at hw
            obtain ⟨hnew, k, hik, hk, hname, hbefore⟩ := (ih (h.next hv) w).1 hw
            refine ⟨fun hmem => hnew (List.mem_cons_of_mem u hmem), k, by omega, by omega, hname,
              fun j hij hjk => ?_⟩
            rcases Nat.eq_or_lt_of_le hij with rfl | hlt
            · exact hgoes.2 ⟨hu, by rw [hv]; rfl⟩
            · exact hbefore j hlt hjk
      · rintro ⟨hw, k, hik, hk, hname, hbefore⟩
        by_cases hwu : w = u
        · exact Or.inl hwu
        · refine Or.inr ?_
          have hlt : i < k := by
            refine Nat.lt_of_le_of_ne hik ?_
            rintro rfl
            exact hwu (Option.some.inj (hname.symm.trans h.here))
          obtain ⟨-, hnext⟩ := hgoes.1 (hbefore i (Nat.le_refl i) hlt)
          obtain ⟨v, hv⟩ := Option.isSome_iff_exists.1 hnext
          rw [hv]
          exact (ih (h.next hv) w).2 ⟨by simp [hwu, hw], k, hlt, by omega, hname,
            fun j hij hjk => hbefore j (by omega) hjk⟩

end Lookup

/-! ## What is asked -/

namespace Resolver

variable (r : Resolver) (source : Inquiry.Source)

/-- What was asked for before, and the answers that were had to further questions. -/
def Learns (cache cache' : UriMap Message) (asked : List Question) : Prop :=
  ∀ v, cache'.get? v = (cache.get? v).or
    (if .event r.ownAtom v ∈ asked then (Lookup.ofSource source r.ownAtom v).toOption else none)

/-- The questions about those of the names that are not found already. -/
def questionsFor (cache : UriMap Message) (names : List Uri) : List Question :=
  (names.filter fun v => ((r.store.find? v).or (cache.get? v)).isNone).map (.event r.ownAtom)

section

variable {r : Resolver} {source : Inquiry.Source} {cache cache' cache'' : UriMap Message}
  {asked asked' : List Question}

theorem Learns.refl (r : Resolver) (source : Inquiry.Source) (cache : UriMap Message) :
    r.Learns source cache cache [] := by
  intro v
  simp

theorem Learns.trans (h : r.Learns source cache cache' asked)
    (h' : r.Learns source cache' cache'' asked') :
    r.Learns source cache cache'' (asked ++ asked') := by
  intro v
  rw [h' v, h v, Option.or_assoc]
  by_cases hv : .event r.ownAtom v ∈ asked <;> by_cases hv' : .event r.ownAtom v ∈ asked' <;>
    simp [hv, hv']

end

/-- A look-up learns what it asks for. -/
theorem learns_lookUp (u : Uri) (cache : UriMap Message) :
    r.Learns source cache ((r.lookUp u cache).run source).2
      ((r.lookUp u cache).questions source) := by
  cases r.looksUp source u cache with
  | found m hm hrun hasked =>
    rw [hrun, hasked]
    exact .refl r source cache
  | failed e hmissing he hrun hasked =>
    rw [hrun, hasked]
    intro v
    have he : Lookup.ofSource source r.ownAtom u = .error e := he
    by_cases hv : v = u
    · simp [hv, he, Except.toOption]
    · simp [hv]
  | learnt m hmissing hm hrun hasked =>
    rw [hrun, hasked]
    intro v
    have hm : Lookup.ofSource source r.ownAtom u = .ok m := hm
    by_cases hv : v = u
    · simp [hv, hm, (Option.or_eq_none_iff.1 hmissing).2, Except.toOption]
    · simp [hv]

/-- Following copies learns what it asks for. -/
theorem learns_follow (start : Uri) (steps : Nat) :
    ∀ (head : Option Uri) (u : Uri) (visited : List Uri) (cache : UriMap Message),
      r.Learns source cache ((r.follow start steps head u visited cache).run source).2
        ((r.follow start steps head u visited cache).questions source) := by
  induction steps with
  | zero =>
    intro head u visited cache
    exact .refl r source cache
  | succ steps ih =>
    intro head u visited cache
    have hlookUp := r.learns_lookUp source u cache
    unfold follow
    split
    · exact .refl r source cache
    · rw [Inquiry.run_bind, Inquiry.questions_bind]
      generalize (r.lookUp u cache).run source = found at hlookUp ⊢
      obtain ⟨result, cache'⟩ := found
      refine hlookUp.trans ?_
      cases result with
      | error e => exact .refl r source cache'
      | ok m =>
        simp only
        cases m.nextCopy? r.ownAtom with
        | none => exact .refl r source cache'
        | some v => exact ih _ v _ cache'

theorem questionsFor_cons_of_found {cache : UriMap Message} {u : Uri} {m : Message}
    (h : (r.store.find? u).or (cache.get? u) = some m) (names : List Uri) :
    r.questionsFor cache (u :: names) = r.questionsFor cache names := by
  simp only [questionsFor, List.filter_cons, h, Option.isNone_some, Bool.false_eq_true, if_false]

theorem questionsFor_cons_of_missing {cache : UriMap Message} {u : Uri}
    (h : (r.store.find? u).or (cache.get? u) = none) (names : List Uri) :
    r.questionsFor cache (u :: names) = .event r.ownAtom u :: r.questionsFor cache names := by
  simp only [questionsFor, List.filter_cons, h, Option.isNone_none, if_true, List.map_cons]

/-- An answer that is kept makes no difference for other names. -/
theorem questionsFor_insert {cache : UriMap Message} {u : Uri} {names : List Uri} (m : Message)
    (hu : u ∉ names) : r.questionsFor (cache.insert u m) names = r.questionsFor cache names := by
  unfold questionsFor
  congr 1
  refine List.filter_congr fun v hv => ?_
  have hvu : v ≠ u := by
    rintro rfl
    exact hu hv
  rw [UriMap.get?_insert, if_neg hvu]

/-- The names looked at are asked for, in their order, unless they are found. -/
theorem questions_follow (start : Uri) (steps : Nat) :
    ∀ (head : Option Uri) (u : Uri) (visited : List Uri) (cache : UriMap Message),
      (r.follow start steps head u visited cache).questions source =
        r.questionsFor cache ((r.known source cache).trail r.ownAtom steps u visited) := by
  induction steps with
  | zero =>
    intro head u visited cache
    rfl
  | succ steps ih =>
    intro head u visited cache
    unfold follow Lookup.trail
    split
    · rfl
    · rw [Inquiry.questions_bind]
      cases r.looksUp source u cache with
      | found m hm hrun hasked =>
        have hnext : (r.known source cache).next? r.ownAtom u = m.nextCopy? r.ownAtom :=
          Lookup.next?_of_ok (r.known_of_found source hm)
        rw [hrun, hasked, hnext, r.questionsFor_cons_of_found hm]
        simp only
        cases m.nextCopy? r.ownAtom with
        | none => rfl
        | some v => exact ih _ v _ cache
      | failed e hmissing he hrun hasked =>
        have hknown := (r.known_of_missing source hmissing).trans he
        rw [hrun, hasked, Lookup.next?_of_error hknown, r.questionsFor_cons_of_missing hmissing]
        rfl
      | learnt m hmissing hm hrun hasked =>
        have hknown := (r.known_of_missing source hmissing).trans hm
        rw [hrun, hasked, Lookup.next?_of_ok hknown, r.questionsFor_cons_of_missing hmissing]
        simp only
        cases m.nextCopy? r.ownAtom with
        | none => rfl
        | some v =>
          -- the rest of the way does not come back to the name
          have hnot : u ∉ (r.known source cache).trail r.ownAtom steps v (u :: visited) :=
            fun hmem => Lookup.not_mem_visited_of_mem_trail steps hmem List.mem_cons_self
          rw [ih, r.known_insert source hmissing hm, r.questionsFor_insert m hnot]
          rfl

theorem nodup_questionsFor {names : List Uri} (h : names.Nodup) (cache : UriMap Message) :
    (r.questionsFor cache names).Nodup := by
  refine (h.filter _).map fun u v huv => ?_
  cases huv
  rfl

/-- No event is asked for twice. -/
theorem asksOnce_resolve (u : Uri) (cache : UriMap Message) : (r.resolve u cache).AsksOnce := by
  intro source
  unfold resolve
  rw [r.questions_follow source]
  exact r.nodup_questionsFor (Lookup.trail_nodup _) cache

/-! ## Resolving along the chain -/

/-- A resolution with its questions, as the chain of the entry has it: the result is that of the
first name that stops it, the names up to there that are not found are asked for, and the answers
that were had are kept. -/
structure FollowsChain (r : Resolver) (answers : Inquiry.Source) (start : Uri)
    (cache : UriMap Message) (outcome : Outcome) (asked : List Question) : Prop where
  result : outcome.1 = ((List.range r.maxDepth).findSome?
      ((r.known answers cache).stopAt? r.ownAtom start)).getD
        (.error (.depthExceeded start r.maxDepth))
  few : asked.length ≤ r.maxDepth
  asked_iff : ∀ q, q ∈ asked ↔ ∃ v, q = .event r.ownAtom v ∧
    r.store.find? v = none ∧ cache.get? v = none ∧
    ∃ i < r.maxDepth, (r.known answers cache).nameAt? r.ownAtom start i = some v ∧
      ∀ j < i, (r.known answers cache).stopAt? r.ownAtom start j = none
  learns : r.Learns answers cache outcome.2 asked

theorem followsChain_run (answers : Inquiry.Source) (start : Uri) (cache : UriMap Message) :
    r.FollowsChain answers start cache ((r.resolve start cache).run answers)
      ((r.resolve start cache).questions answers) := by
  have honChain := Lookup.onChain_start (r.known answers cache) r.ownAtom start
  have hquestions := r.questions_follow answers start r.maxDepth none start [] cache
  constructor
  case result =>
    rw [List.range_eq_range']
    refine (r.run_follow answers start r.maxDepth none start [] cache).trans ?_
    exact Lookup.walk_eq_findSome? _ _ honChain fun m hm => ⟨m, hm, rfl⟩
  case few =>
    unfold resolve
    rw [hquestions, questionsFor, List.length_map]
    exact Nat.le_trans (List.length_filter_le _ _) (Lookup.length_trail_le _)
  case asked_iff =>
    intro q
    unfold resolve
    rw [hquestions, questionsFor]
    simp only [List.mem_map, List.mem_filter, Lookup.mem_trail_iff _ honChain,
      Option.isNone_iff_eq_none, Option.or_eq_none_iff, List.not_mem_nil, not_false_eq_true,
      true_and, Nat.zero_le, Nat.zero_add, forall_true_left]
    constructor
    · rintro ⟨v, ⟨hlooked, hstore, hcache⟩, rfl⟩
      exact ⟨v, rfl, hstore, hcache, hlooked⟩
    · rintro ⟨v, rfl, hstore, hcache, hlooked⟩
      exact ⟨v, ⟨hlooked, hstore, hcache⟩, rfl⟩
  case learns => exact r.learns_follow answers start r.maxDepth none start [] cache

/-- For every source, whose answers may vary, an entry is resolved along its chain of copies: the
first names of the chain are looked at in turn, up to the greatest number of copies, and the first
one that was looked at before, has no message, or has one that leads nowhere decides the result. -/
theorem resolve_follows_chain (source : List Question → Inquiry.Source) (past : List Question)
    (start : Uri) (cache : UriMap Message) :
    ∃ answers asked,
      ((r.resolve start cache).runAfter source past).2 = past ++ asked ∧
      (∀ before q, before ++ [q] <+: asked → answers q = source (past ++ before) q) ∧
      r.FollowsChain answers start cache ((r.resolve start cache).runAfter source past).1 asked := by
  obtain ⟨answers, hrun, hgiven⟩ := (r.asksOnce_resolve start cache).exists_answers source past
  refine ⟨answers, (r.resolve start cache).questions answers, by rw [hrun], hgiven, ?_⟩
  rw [hrun]
  exact r.followsChain_run answers start cache

/-- A chain that closes at its third name is a cycle only if three names are looked at. -/
example :
    ((resolve ⟨⟨"own"⟩, .ofList [ownCopy], 2⟩ ⟨"mine"⟩ ∅).run bothCopies).1 =
        .error (.depthExceeded ⟨"mine"⟩ 2) ∧
      ((resolve ⟨⟨"own"⟩, .ofList [ownCopy], 3⟩ ⟨"mine"⟩ ∅).run bothCopies).1 =
        .error (.cycle ⟨"mine"⟩) :=
  ⟨by rfl, by rfl⟩

end Resolver

end Parley
