/-
A send that the node does not take leaves its own copy in the store, marked as failed, and the copy
counts for the status of the messages it refers to as if it had been sent. So the client shows the
others as before only where the action adds nothing: a proposal or claim of a message that is
proposed or claimed already, or of one that is rejected or retracted. A proposal and a claim may be
made again, and no other action may.
-/
import Parley.Proofs.Negotiation.Addition
import Parley.Proofs.Session.Run

namespace Parley

/-! ## The copy of a message that was not sent -/

/-- A message, marked as not sent. -/
def Message.failed (m : Message) : Message :=
  { m with delivery := { m.delivery with failedToSend := true } }

/-- Storing a message and recording that it was not sent stores it so marked. -/
theorem Store.recordFailure_insert {s : Store} {n : Message} (hn : s.get? n.uri = none) :
    ((s.insert n).2.recordFailure n.uri).2 =
      { s.add n.failed with version := s.version + 2 } := by
  have hget : (s.add n).messages.get? n.uri = some n := by
    show (s.add n).get? n.uri = _
    rw [get?_add, if_pos rfl]
  have hmessages : (s.messages.insert n.uri n).insert n.uri n.failed =
      s.messages.insert n.uri n.failed := by
    refine UriMap.ext_get? fun v => ?_
    simp only [UriMap.get?_insert]
    split <;> rfl
  have hindex : (if n.remoteUri = none
      then indexRemote (indexRemote s.remoteIndex n.remoteUri n.uri) n.remoteUri n.uri
      else indexRemote s.remoteIndex n.remoteUri n.uri) =
        indexRemote s.remoteIndex n.remoteUri n.uri := by
    cases n.remoteUri <;> rfl
  rw [insert_of_unused hn, recordFailure, edit, hget]
  show Store.mk _ _ _ = Store.mk _ _ _
  congr 1

theorem Message.Takes.failed {n : Message} {a : Action} {r : Uri} {s : Store}
    (h : n.Takes a r s) : n.failed.Takes a r s :=
  ⟨h.direction, h.hasContent, h.references, h.remote, h.unused, h.known⟩

/-! ## What it changes -/

/-- Whether an action adds nothing to a message of a status. -/
def Action.isIdle (st : MessageStatus) : Action → Bool
  | .propose => st.proposed || st.rejected || st.retracted
  | .claim => st.claimed || st.rejected || st.retracted
  | _ => false

section

open Rules

variable {s s' : Store} {n : Message} {a : Action} {r : Uri}

/-- An action that is taken may not be taken again, unless it is an offer. -/
theorem Action.qualifies_again_iff (hs : s.Coherent) (hs' : s'.Coherent)
    (hmem : ∀ x, x ∈ s'.toList ↔ x = n ∨ x ∈ s.toList) (hn : n.Takes a r s) {m : Message}
    (hr : m.hasName r = true) (hq : a.qualifies m (s.backlinks.status m) = true) :
    a.qualifies m (s'.backlinks.status m) = true ↔
      r.isBlank = true ∨ a = .propose ∨ a = .claim := by
  have h := Backlinks.status_describes hs m
  have h' := Backlinks.status_describes hs' m
  by_cases ha : r.isBlank = true ∨ a = .propose ∨ a = .claim
  · have honly := hn.onlyOffers ha
    refine iff_of_true ?_ ha
    obtain ⟨hst, -, -⟩ := honly.describes hmem h h'
    rw [hst]
    rcases ha with hb | rfl | rfl
    · have hno (k : ReferenceKind) : ¬ n.RefersTo k m := fun hk => by
        rw [hn.refersTo_iff, hb] at hk
        cases hk.2.1
      rw [← hst, (honly.status_eq_iff hmem h h').2
        ⟨fun hk => absurd hk (hno _), fun hk => absurd hk (hno _)⟩]
      exact hq
    · exact hq
    · exact hq
  · refine iff_of_false ?_ ha
    rw [not_or, not_or] at ha
    obtain ⟨hb, hp, hc⟩ := ha
    have href : n.RefersTo a.reference m :=
      hn.refersTo_iff.2 ⟨rfl, Bool.eq_false_iff.2 hb, hr⟩
    rw [not_qualifies_of_taken hp hc ((hmem n).2 (Or.inl rfl)) href hn.direction hn.hasContent
      (hn.stands hmem) h']
    exact Bool.false_ne_true

/-- Taking an action leaves the status of every other message as it is exactly if it adds nothing to
those it refers to. -/
theorem Backlinks.statuses_kept_iff (hs : s.Coherent) (hs' : s'.Coherent)
    (hmem : ∀ x, x ∈ s'.toList ↔ x = n ∨ x ∈ s.toList) (hn : n.Takes a r s) {m₀ : Message}
    (hm₀ : m₀ ∈ s.toList) (hr : m₀.hasName r = true)
    (hq : a.qualifies m₀ (s.backlinks.status m₀) = true) :
    (∀ m ∈ s.toList, s'.backlinks.status m = s.backlinks.status m) ↔
      r.isBlank = true ∨
        ∀ m ∈ s.toList, m.hasName r = true → a.isIdle (s.backlinks.status m) = true := by
  by_cases ha : r.isBlank = true ∨ a = .propose ∨ a = .claim
  · -- an offer changes what is proposed and claimed, message by message
    have hkept (m : Message) := (hn.onlyOffers ha).status_eq_iff hmem
      (status_describes hs m) (status_describes hs' m)
    simp only [hkept, hn.refersTo_iff]
    rcases ha with hb | rfl | rfl
    · simp [hb]
    all_goals
      cases r.isBlank <;> simp [Action.reference, Action.isIdle]
  · -- any other action changes at least the message that it was taken on
    have hagain := mt (Action.qualifies_again_iff hs hs' hmem hn hr hq).1 ha
    rw [not_or, not_or] at ha
    obtain ⟨hb, hp, hc⟩ := ha
    refine iff_of_false (fun hkept => ?_) ?_
    · rw [hkept m₀ hm₀] at hagain
      exact hagain hq
    · rintro (h | h)
      · exact hb h
      · have hidle := h m₀ hm₀ hr
        cases a with
        | propose => exact hp rfl
        | claim => exact hc rfl
        | accept | reject | retract | proposeToCancel => cases hidle

end

/-! ## The run -/

/-- How a connection shows a message: its status, its classification and the permitted actions. -/
def Connection.outlook (c : Connection) (m : Message) :
    MessageStatus × Classification × List Action :=
  let st := c.store.backlinks.status m
  (st, m.shownAs st, Action.permitted m st c.lifecycle.state)

theorem Connection.outlook_store_iff (c : Connection) (t : Store) (m : Message) :
    ({ c with store := t } : Connection).outlook m = c.outlook m ↔
      t.backlinks.status m = c.store.backlinks.status m := by
  unfold outlook
  constructor
  · intro e
    exact (Prod.mk.inj e).1
  · intro e
    show (t.backlinks.status m, m.shownAs (t.backlinks.status m),
      Action.permitted m (t.backlinks.status m) c.lifecycle.state) = _
    rw [e]

namespace Call

section

variable (settings : Settings) (stamp : Stamp) {u r : Uri} {a : Action} {s : Session}
  {c : Connection} {node : Node} {e : NodeFailure}

theorem compose_takes (hc : c.store.Coherent)
    (hok : checkIntent c (.negotiate a r) = .ok ())
    (hfresh : c.store.Unused (compose settings c (.negotiate a r) stamp).message.uri) :
    (compose settings c (.negotiate a r) stamp).message.Takes a r c.store := by
  obtain ⟨-, m, hm, -⟩ := checkIntent_negotiate_iff.1 hok
  exact ⟨rfl, rfl, rfl, rfl, hfresh, m, hc.of_find? hm⟩

/-- When the node does not take the message of a permitted action, the call fails and every message
is still stored. The others are shown as before exactly if the action adds nothing to what it refers
to, and it may be retried exactly if it is an offer or refers to nothing. -/
theorem failed_send_unnoticed_iff (hu : s.connections.get? u = some c) (hc : c.store.Reachable)
    (hok : checkIntent c (.negotiate a r) = .ok ())
    (hfresh : c.store.Unused (compose settings c (.negotiate a r) stamp).message.uri)
    (hfail : ∀ d, node (.send u d) = .error e) :
    ∃ s' c', (Call.send settings u (.negotiate a r)).run stamp node s =
        (.error (.transport e), s') ∧
      s'.connections.get? u = some c' ∧
      (∀ m ∈ c.store.toList, m ∈ c'.store.toList) ∧
      ((∀ m ∈ c.store.toList, c'.outlook m = c.outlook m) ↔
        r.isBlank = true ∨ ∀ m ∈ c.store.toList, m.hasName r = true →
          a.isIdle (c.store.backlinks.status m) = true) ∧
      (checkIntent c' (.negotiate a r) = .ok () ↔
        r.isBlank = true ∨ a = .propose ∨ a = .claim) := by
  have hn := compose_takes settings stamp hc.coherent hok hfresh
  obtain ⟨s', hrun, hs'⟩ := run_send_failed settings stamp hu hok hfail
  set n := (compose settings c (.negotiate a r) stamp).message
  set t := ((c.store.insert n).2.recordFailure n.uri).2 with ht
  have hunused := hn.unused.get? hc.coherent
  have htc : t.Coherent := ((hc.insert n).recordFailure n.uri).coherent
  -- the mark makes no difference to the rules, so the copy takes the action as if it had been sent
  rw [Store.recordFailure_insert hunused] at ht
  have hmem (x : Message) : x ∈ t.toList ↔ x = n.failed ∨ x ∈ c.store.toList := by
    rw [ht]
    exact Store.mem_add_iff (n := n.failed) hunused
  have hfind : t.find? r = c.store.find? r := by
    rw [ht]
    exact hc.coherent.find?_add (n := n.failed) hunused hn.failed.hasName_eq_false
  obtain ⟨hstate, m, hm, hadmits, hq⟩ := checkIntent_negotiate_iff.1 hok
  obtain ⟨hmstored, hmr⟩ := hc.coherent.of_find? hm
  refine ⟨s', { c with store := t }, hrun, hs', fun x hx => (hmem x).2 (Or.inr hx), ?_, ?_⟩
  · simp only [Connection.outlook_store_iff]
    exact Backlinks.statuses_kept_iff hc.coherent htc hmem hn.failed hmstored hmr hq
  · rw [checkIntent_negotiate_iff, hfind, hm,
      ← Action.qualifies_again_iff hc.coherent htc hmem hn.failed hmr hq]
    constructor
    · rintro ⟨-, x, hx, -, hqx⟩
      cases hx
      exact hqx
    · exact fun hqm => ⟨hstate, m, rfl, hadmits, hqm⟩

end

/-- A proposal of a message, both of the counterpart. -/
def openProposal : Message :=
  .chat ⟨"p"⟩ .incoming (References.none.insert .proposes ⟨"x"⟩)

/-- A connection whose counterpart made a proposal. -/
def offeredConnection : Connection :=
  { Connection.fresh ⟨"own"⟩ ⟨"own#s"⟩ ⟨"peer#s"⟩ (.resume .connected) with
    store := .ofList [.chat ⟨"x"⟩ .incoming .none, openProposal] }

def offeredDeal : Session :=
  { Session.start 3 with
    connections := (∅ : UriMap Connection).insert ⟨"c"⟩ offeredConnection }

def silentNode : Node := fun _ => .error ⟨none, "unreachable"⟩

/-- Accepting the proposal while the node answers nothing. -/
def failedAccept : Except SessionError Uri × Session :=
  (Call.send .default ⟨"c"⟩ (.negotiate .accept ⟨"p"⟩)).run ⟨"e", 0⟩ silentNode offeredDeal

theorem failed_send_unnoticed_iff_openProposal :
    ∃ s' c', failedAccept = (.error (.transport ⟨none, "unreachable"⟩), s') ∧
      s'.connections.get? ⟨"c"⟩ = some c' ∧
      (¬ ∀ m ∈ offeredConnection.store.toList, c'.outlook m = offeredConnection.outlook m) ∧
      checkIntent c' (.negotiate .accept ⟨"p"⟩) ≠ .ok () := by
  have hu : offeredDeal.connections.get? ⟨"c"⟩ = some offeredConnection := by decide
  have hok : checkIntent offeredConnection (.negotiate .accept ⟨"p"⟩) = .ok () := by decide
  have hfail (d : Dispatch) :
      silentNode (.send ⟨"c"⟩ d) = .error ⟨none, "unreachable"⟩ := rfl
  obtain ⟨s', c', hrun, hc', -, hshown, hagain⟩ := failed_send_unnoticed_iff .default ⟨"e", 0⟩ hu
    (Store.reachable_ofList _) hok (by decide) hfail
  refine ⟨s', c', hrun, hc', fun h => ?_, fun h => ?_⟩
  · exact absurd (hshown.1 h) (by decide)
  · exact absurd (hagain.1 h) (by decide)

/-- An accept that was never sent turns an open proposal into an agreement, so that it may not be
accepted again. -/
theorem failed_accept_agrees :
    ∃ c', offeredDeal.connections.get? ⟨"c"⟩ = some offeredConnection ∧
      offeredConnection.store.Reachable ∧
      checkIntent offeredConnection (.negotiate .accept ⟨"p"⟩) = .ok () ∧
      failedAccept.1 = .error (.transport ⟨none, "unreachable"⟩) ∧
      failedAccept.2.connections.get? ⟨"c"⟩ = some c' ∧
      openProposal ∈ offeredConnection.store.toList ∧
      (offeredConnection.outlook openProposal).2 = (.proposal, [.accept, .reject]) ∧
      (c'.outlook openProposal).2 = (.agreement, [.proposeToCancel]) ∧
      checkIntent c' (.negotiate .accept ⟨"p"⟩) =
        .error (.actionNotAllowed .accept ⟨"p"⟩) := by
  refine ⟨_, by decide, Store.reachable_ofList _, by decide, by decide,
    Option.eq_some_of_isSome (by decide), by decide, by decide, by decide, by decide⟩

end Call

end Parley
