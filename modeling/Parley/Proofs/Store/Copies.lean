/-
What a store makes of the copies of a message. The first copy is stored whole and later ones are
merged into it, field by field. Where the copies agree, the outcome is a function of the set of
copies: acknowledgements add up, a message is unread while all copies are, and the remote name is
that of any copy with one. So stores made of the same messages, in any order and with repetitions,
hold the same messages, but for what only the first copy tells or a later acknowledgement clears:
the sockets, the system flag and the record of a failed delivery.
-/
import Parley.Proofs.Store.Reachable

namespace Parley

namespace Message

/-- Copies of a message may differ in what is known about its delivery, in whether it is unread, in
whether they have the remote name, and in what only the first copy tells. -/
structure AgreesWith (a b : Message) : Prop where
  kind : a.kind = b.kind
  direction : a.direction = b.direction
  hasContent : a.hasContent = b.hasContent
  date : a.date = b.date
  remote : ∀ r r', a.remoteUri = some r → b.remoteUri = some r' → r = r'

/-- Any two copies of one message agree. -/
def CopiesAgree (ms : List Message) : Prop :=
  ∀ a ∈ ms, ∀ b ∈ ms, a.uri = b.uri → a.AgreesWith b

/-- The copies of the message of a name, in the order given. -/
def copiesOf (ms : List Message) (u : Uri) : List Message :=
  ms.filter fun c => c.uri = u

/-- A message is what its copies say together. -/
structure IsMergeOf (m : Message) (copies : List Message) : Prop where
  copied : ∃ c, c ∈ copies
  uri : ∀ c ∈ copies, c.uri = m.uri
  agrees : ∀ c ∈ copies, c.AgreesWith m
  remote : ∀ r, m.remoteUri = some r ↔ ∃ c ∈ copies, c.remoteUri = some r
  receivedByOwn : m.delivery.receivedByOwn = true ↔ ∃ c ∈ copies, c.delivery.receivedByOwn = true
  receivedByRemote :
    m.delivery.receivedByRemote = true ↔ ∃ c ∈ copies, c.delivery.receivedByRemote = true
  unread : m.unread = true ↔ ∀ c ∈ copies, c.unread = true

/-- A message without what depends on which of its copies came first. -/
def essence (m : Message) : Message :=
  { m with
    systemMessage := false
    senderSocket := none
    targetSocket := none
    delivery := ⟨m.delivery.receivedByOwn, m.delivery.receivedByRemote, false⟩ }

/-! ## Merging copies -/

section

variable {m m' c : Message} {copies copies' ms ms' : List Message}

theorem mem_copiesOf {u : Uri} : c ∈ copiesOf ms u ↔ c ∈ ms ∧ c.uri = u := by
  simp [copiesOf]

theorem copiesOf_append_of_eq (hc : c.uri = m.uri) :
    copiesOf (ms ++ [c]) m.uri = copiesOf ms m.uri ++ [c] := by
  simp [copiesOf, hc]

theorem copiesOf_append_of_ne {u : Uri} (hc : c.uri ≠ u) :
    copiesOf (ms ++ [c]) u = copiesOf ms u := by
  simp [copiesOf, hc]

theorem isMergeOf_singleton (m : Message) : m.IsMergeOf [m] := by
  have hself : m.AgreesWith m :=
    ⟨rfl, rfl, rfl, rfl, fun r r' h h' => Option.some.inj (h.symm.trans h')⟩
  constructor <;> simp [hself]

/-- A message agrees with a further copy if its copies do. -/
theorem IsMergeOf.agreesWith (h : m.IsMergeOf copies) (hc : ∀ x ∈ copies, x.AgreesWith c) :
    c.AgreesWith m := by
  obtain ⟨x, hx⟩ := h.copied
  have hxc := hc x hx
  have hxm := h.agrees x hx
  refine ⟨hxc.kind.symm.trans hxm.kind, hxc.direction.symm.trans hxm.direction,
    hxc.hasContent.symm.trans hxm.hasContent, hxc.date.symm.trans hxm.date, fun r r' hr hr' => ?_⟩
  -- the remote name of the message is that of one of its copies
  obtain ⟨y, hy, hyr⟩ := (h.remote r').1 hr'
  exact ((hc y hy).remote r' r hyr hr).symm

/-- Merging a further copy that agrees makes a message what all its copies say together. -/
theorem IsMergeOf.merge (h : m.IsMergeOf copies) (hu : c.uri = m.uri) (hc : c.AgreesWith m) :
    (m.merge c).IsMergeOf (copies ++ [c]) := by
  have hremote (r : Uri) :
      (m.merge c).remoteUri = some r ↔ m.remoteUri = some r ∨ c.remoteUri = some r := by
    unfold Message.merge
    cases hm : m.remoteUri with
    | none => simp
    | some r' =>
      simp only [Option.some_or, Option.some.injEq]
      constructor
      · exact Or.inl
      · rintro (e | e)
        · exact e
        · exact (hc.remote r r' e hm).symm
  have hagrees : ∀ x : Message, x.AgreesWith m → (∀ r, x.remoteUri = some r →
      (m.merge c).remoteUri = some r) → x.AgreesWith (m.merge c) := by
    intro x hx hr
    refine ⟨hx.kind, hx.direction, hx.hasContent, hx.date, fun r r' e e' => ?_⟩
    exact Option.some.inj ((hr r e).symm.trans e')
  constructor
  case copied => exact ⟨c, by simp⟩
  case uri =>
    intro x hx
    rcases List.mem_append.1 hx with hx | hx
    · exact h.uri x hx
    · exact List.mem_singleton.1 hx ▸ hu
  case agrees =>
    intro x hx
    rcases List.mem_append.1 hx with hx | hx
    · exact hagrees x (h.agrees x hx) fun r e => (hremote r).2 (Or.inl ((h.remote r).2 ⟨x, hx, e⟩))
    · cases List.mem_singleton.1 hx
      exact hagrees c hc fun r e => (hremote r).2 (Or.inr e)
  case remote => simp [hremote, h.remote, or_and_right, exists_or]
  case receivedByOwn =>
    simp [Message.merge, Delivery.merge, h.receivedByOwn, or_and_right, exists_or]
  case receivedByRemote =>
    simp [Message.merge, Delivery.merge, h.receivedByRemote, or_and_right, exists_or]
  case unread => simp [Message.merge, h.unread, or_imp, forall_and]

theorem IsMergeOf.congr (h : m.IsMergeOf copies) (hmem : ∀ x, x ∈ copies ↔ x ∈ copies') :
    m.IsMergeOf copies' := by
  obtain ⟨hcopied, huri, hagrees, hremote, hown, hpeer, hunread⟩ := h
  simp only [hmem] at hcopied huri hagrees hremote hown hpeer hunread
  exact ⟨hcopied, huri, hagrees, hremote, hown, hpeer, hunread⟩

/-- The essence of a message is determined by the set of its copies. -/
theorem IsMergeOf.essence_eq (h : m.IsMergeOf copies) (h' : m'.IsMergeOf copies')
    (hmem : ∀ x, x ∈ copies ↔ x ∈ copies') : m.essence = m'.essence := by
  obtain ⟨c, hc⟩ := h.copied
  have hc' : c ∈ copies' := (hmem c).1 hc
  have hcm := h.agrees c hc
  have hcm' := h'.agrees c hc'
  have huri : m.uri = m'.uri := (h.uri c hc).symm.trans (h'.uri c hc')
  have hremote : m.remoteUri = m'.remoteUri := by
    refine Option.ext fun r => ?_
    rw [h.remote, h'.remote]
    simp only [hmem]
  have hown : m.delivery.receivedByOwn = m'.delivery.receivedByOwn := by
    rw [Bool.eq_iff_iff, h.receivedByOwn, h'.receivedByOwn]
    simp only [hmem]
  have hpeer : m.delivery.receivedByRemote = m'.delivery.receivedByRemote := by
    rw [Bool.eq_iff_iff, h.receivedByRemote, h'.receivedByRemote]
    simp only [hmem]
  have hunread : m.unread = m'.unread := by
    rw [Bool.eq_iff_iff, h.unread, h'.unread]
    simp only [hmem]
  unfold essence
  rw [huri, hremote, hunread, hown, hpeer, ← hcm.kind, hcm'.kind, ← hcm.direction, hcm'.direction,
    ← hcm.hasContent, hcm'.hasContent, ← hcm.date, hcm'.date]

theorem CopiesAgree.subset (h : CopiesAgree ms) (hsub : ∀ x ∈ ms', x ∈ ms) : CopiesAgree ms' :=
  fun a ha b hb e => h a (hsub a ha) b (hsub b hb) e

end

end Message

namespace Store

open Message

/-! ## The store of a list of copies -/

/-- A store gathers the copies of a list: each stored message is what the copies of its name
say together, and a name without a stored message has no copy. -/
structure Gathers (s : Store) (ms : List Message) : Prop where
  merged : ∀ u m, s.get? u = some m → m.IsMergeOf (copiesOf ms u)
  unknown : ∀ u, s.get? u = none → copiesOf ms u = []

theorem gathers_empty : empty.Gathers [] :=
  ⟨fun _ _ h => absurd h nofun, fun _ _ => rfl⟩

/-- Admitting a copy that agrees with the ones before it. -/
theorem Gathers.insert {s : Store} {ms : List Message} {c : Message} (h : s.Gathers ms)
    (hagree : ∀ x ∈ ms, x.uri = c.uri → x.AgreesWith c) : (s.insert c).2.Gathers (ms ++ [c]) := by
  constructor
  case merged =>
    intro u m hm
    rw [get?_insert] at hm
    split at hm
    case isTrue hu =>
      subst hu
      cases hs : s.get? c.uri with
      | none =>
        -- the first copy is stored whole
        rw [hs] at hm
        cases hm
        rw [copiesOf_append_of_eq rfl, h.unknown c.uri hs]
        exact isMergeOf_singleton c
      | some stored =>
        rw [hs] at hm
        cases hm
        have hstored := h.merged c.uri stored hs
        have huri : c.uri = stored.uri := by
          obtain ⟨x, hx⟩ := hstored.copied
          exact (mem_copiesOf.1 hx).2.symm.trans (hstored.uri x hx)
        have hc : c.AgreesWith stored := hstored.agreesWith fun x hx =>
          hagree x (mem_copiesOf.1 hx).1 (mem_copiesOf.1 hx).2
        rw [copiesOf_append_of_eq rfl]
        exact hstored.merge huri hc
    case isFalse hu =>
      rw [copiesOf_append_of_ne (Ne.symm hu)]
      exact h.merged u m hm
  case unknown =>
    intro u hu
    rw [get?_insert] at hu
    split at hu
    case isTrue => cases hu
    case isFalse hne =>
      rw [copiesOf_append_of_ne (Ne.symm hne)]
      exact h.unknown u hu

theorem Gathers.insertAll {s : Store} {ms more : List Message} (h : s.Gathers ms)
    (hagree : CopiesAgree (ms ++ more)) : (s.insertAll more).Gathers (ms ++ more) := by
  induction more generalizing s ms with
  | nil => rwa [List.append_nil]
  | cons c more ih =>
    have hstep : (s.insert c).2.Gathers (ms ++ [c]) :=
      h.insert fun x hx => hagree x (by simp [hx]) c (by simp)
    rw [List.append_cons] at hagree ⊢
    exact ih hstep hagree

theorem gathers_ofList {ms : List Message} (h : CopiesAgree ms) : (ofList ms).Gathers ms :=
  gathers_empty.insertAll h

/-- A store of agreeing copies knows exactly the names of the copies. -/
theorem Gathers.get?_isSome_iff {s : Store} {ms : List Message} (h : s.Gathers ms) {u : Uri} :
    (s.get? u).isSome = true ↔ ∃ c ∈ ms, c.uri = u := by
  cases hs : s.get? u with
  | none =>
    have hnone := h.unknown u hs
    simp only [Option.isSome_none, Bool.false_eq_true, false_iff]
    rintro ⟨c, hc, hu⟩
    have hmem : c ∈ copiesOf ms u := mem_copiesOf.2 ⟨hc, hu⟩
    rw [hnone] at hmem
    cases hmem
  | some m =>
    obtain ⟨c, hc⟩ := (h.merged u m hs).copied
    simp only [Option.isSome_some, true_iff]
    exact ⟨c, mem_copiesOf.1 hc⟩

/-- Stores of the same copies have, name by name, messages of the same essence. -/
theorem Gathers.map_essence_eq {s s' : Store} {ms ms' : List Message} (h : s.Gathers ms)
    (h' : s'.Gathers ms') (hmem : ∀ x, x ∈ ms ↔ x ∈ ms') :
    s.toList.map essence = s'.toList.map essence := by
  have hcopies (u : Uri) (x : Message) : x ∈ copiesOf ms u ↔ x ∈ copiesOf ms' u := by
    rw [mem_copiesOf, mem_copiesOf, hmem]
  have hget (u : Uri) : (s.get? u).map essence = (s'.get? u).map essence := by
    have hsome : (s.get? u).isSome = (s'.get? u).isSome := by
      rw [Bool.eq_iff_iff, h.get?_isSome_iff, h'.get?_isSome_iff]
      simp only [hmem]
    cases hs : s.get? u with
    | none =>
      cases hs' : s'.get? u with
      | none => rfl
      | some m' => simp [hs, hs'] at hsome
    | some m =>
      cases hs' : s'.get? u with
      | none => simp [hs, hs'] at hsome
      | some m' => simp [(h.merged u m hs).essence_eq (h'.merged u m' hs') (hcopies u)]
  have hmaps : s.messages.mapValues (fun _ => essence) = s'.messages.mapValues (fun _ => essence) :=
    UriMap.ext_get? fun u => by
      rw [UriMap.get?_mapValues, UriMap.get?_mapValues]
      exact hget u
  have hvalues (t : Store) :
      t.toList.map essence = (t.messages.mapValues fun _ => essence).values := by
    unfold toList UriMap.values UriMap.mapValues
    simp
  rw [hvalues, hvalues, hmaps]

end Store

end Parley
