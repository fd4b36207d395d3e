/-
Calls that settle one message, by accepting, rejecting or retracting it, under every interleaving of
their steps. A settling message that a call has stored decides about its target from then on, so a
call that is checked later is refused. But the check of a call and the storing of its message are
two steps, and a call that is checked in between is let through as well. Main statement: of two
calls that settle one message both are handed to the node exactly if at some point of the run both
are between the two steps.
-/
import Parley.Proofs.Negotiation.Effect
import Parley.Proofs.Negotiation.FailedSend
import Parley.Proofs.Negotiation.Withdrawal
import Parley.Proofs.Session.Sends

namespace Parley

open Rules

/-! ## Accepts that stand -/

namespace Rules

instance (ms : List Message) (m : Message) : Decidable (Stands ms m) :=
  inferInstanceAs (Decidable (¬ (∃ a ∈ ms, a.RefersTo .rejects m) ∧
    ¬ (m.direction = .outgoing ∧ ∃ a ∈ ms, a.direction = .outgoing ∧ a.RefersTo .retracts m)))

end Rules

namespace Store

variable {s : Store}

/-- No message that accepts something is rejected or retracted. -/
def AcceptsStand (s : Store) : Prop :=
  ∀ n ∈ s.toList, n.references.has .accepts = true → Stands s.toList n

instance (s : Store) : Decidable s.AcceptsStand :=
  inferInstanceAs (Decidable (∀ n ∈ s.toList, n.references.has .accepts = true → Stands s.toList n))

/-- If every accept stands in the end, it stood all along. -/
theorem AcceptsStand.of_performAll (hs : s.Reachable) {ops : List Operation}
    (h : (s.performAll ops).AcceptsStand) : s.AcceptsStand := by
  intro n hn hacc
  obtain ⟨n', hn', hlater⟩ := exists_later hs ops hn
  rw [← hlater.references] at hacc
  exact (h n' hn' hacc).of_later (fun _ ha => exists_later hs ops ha) hlater

end Store

/-! ## Settling -/

namespace Action

/-- Whether an action is the last word on its message. -/
def settles : Action → Bool
  | .accept | .reject | .retract => true
  | .propose | .claim | .proposeToCancel => false

theorem settles_iff {a : Action} : a.settles = true ↔ a = .accept ∨ a = .reject ∨ a = .retract := by
  cases a <;> decide

/-- A message that settles another one decides about it. -/
theorem isDecided_of_settled {ms : List Message} {n m : Message} {st : MessageStatus} {a : Action}
    (h : Describes ms m st) (hn : n ∈ ms) (href : n.RefersTo a.reference m)
    (hdir : n.direction = .outgoing) (hcontent : n.hasContent = true) (ha : a.settles = true)
    (haccept : a = .accept → Stands ms n) (hretract : a = .retract → m.direction = .outgoing) :
    st.isDecided = true := by
  rw [← Bool.not_eq_false, h.isDecided_eq_false_iff]
  rintro ⟨⟨hrej, hret⟩, hacc⟩
  rcases settles_iff.1 ha with rfl | rfl | rfl
  · exact hacc ⟨n, hn, href, hcontent, haccept rfl⟩
  · exact hrej ⟨n, hn, href⟩
  · exact hret ⟨hretract rfl, n, hn, hdir, href⟩

end Action

/-- Whether an intent refers to nothing, or to something by a name that is not blank. -/
def Intent.isNamed (intent : Intent) : Bool :=
  intent.action?.all fun x => !x.2.isBlank

namespace Session

/-- The message that an intent settles, under its own name. -/
def settledBy (s : Session) (u : Uri) : Intent → Option Uri
  | .negotiate a r => if a.settles then ((s.store? u).bind (·.find? r)).map (·.uri) else none
  | _ => none

theorem settledBy_eq_some_iff {s : Session} {u v : Uri} {intent : Intent} :
    s.settledBy u intent = some v ↔
      ∃ a r t m, intent = .negotiate a r ∧ a.settles = true ∧ s.store? u = some t ∧
        t.find? r = some m ∧ m.uri = v := by
  cases intent with
  | connect text | opening text | close text | chat text => simp [settledBy]
  | negotiate a r =>
    cases ha : a.settles with
    | true =>
      simp only [settledBy, ha, if_true, Option.map_eq_some_iff, Option.bind_eq_some_iff]
      constructor
      · rintro ⟨m, ⟨t, ht, hm⟩, hv⟩
        exact ⟨a, r, t, m, rfl, ha, ht, hm, hv⟩
      · rintro ⟨a', r', t, m, e, -, ht, hm, hv⟩
        cases e
        exact ⟨m, ⟨t, ht, hm⟩, hv⟩
    | false =>
      simp only [settledBy, ha, Bool.false_eq_true, if_false]
      refine ⟨nofun, ?_⟩
      rintro ⟨a', r', -, -, e, ha', -⟩
      cases e
      rw [ha] at ha'
      cases ha'

end Session

/-- The message that a send settles, as it is found by the check. -/
def Progress.target? {α : Type} (p : Progress α) (u : Uri) (intent : Intent) : Option Uri :=
  p.met.head?.bind fun s => s.settledBy u intent

/-! ## Two sends, one after the other -/

namespace Call

section

variable {settings : Settings} {u v : Uri} {intent intent' : Intent} {stamp stamp' : Stamp}
  {s s' : Session} {t t' : Store} {d d' : Dispatch}

/-- What a send settles when it is let through qualifies for it. -/
theorem qualifies_of_prepare (hv : s.settledBy u intent = some v)
    (hd : prepare settings s u intent stamp = .ok d) (ht : s.store? u = some t) :
    ∃ a r m, intent = .negotiate a r ∧ a.settles = true ∧ t.find? r = some m ∧ m.uri = v ∧
      a.qualifies m (t.backlinks.status m) = true := by
  obtain ⟨a, r, t₁, m, rfl, ha, ht₁, hm, hmv⟩ := Session.settledBy_eq_some_iff.1 hv
  obtain rfl := Option.some.inj (ht.symm.trans ht₁)
  obtain ⟨c, hc, hok, -⟩ := prepare_eq_ok_iff.1 hd
  have hstore : s.store? u = some c.store := by rw [Session.store?, hc, Option.map_some]
  obtain rfl := Option.some.inj (ht.symm.trans hstore)
  obtain ⟨-, m', hm', -, hq⟩ := checkIntent_negotiate_iff.1 hok
  obtain rfl := Option.some.inj (hm.symm.trans hm')
  exact ⟨a, r, m, rfl, ha, hm, hmv, hq⟩

/-- Once the message of a send that settles another one is stored, a send that would settle the same
one is refused. -/
theorem refused_of_settled (hnamed : intent.isNamed = true) (hv : s.settledBy u intent = some v)
    (hd : prepare settings s u intent stamp = .ok d) (ht : s.store? u = some t) (hs : t.Reachable)
    (hgrows : s.Grows u s') (ht' : s'.store? u = some t') (hstand : t'.AcceptsStand)
    (hstored : ∃ n ∈ t'.toList, ∃ c, (compose settings c intent stamp).message.IsLater n)
    (hv' : s'.settledBy u intent' = some v) : prepare settings s' u intent' stamp' ≠ .ok d' := by
  intro hd'
  obtain ⟨a, r, m, rfl, ha, hm, hmv, hq⟩ := qualifies_of_prepare hv hd ht
  obtain ⟨a', r', m', rfl, ha', hm', hmv', hq'⟩ := qualifies_of_prepare hv' hd' ht'
  obtain ⟨ops, hops⟩ := hgrows.store? ht
  obtain rfl := Option.some.inj (ht'.symm.trans hops)
  have hcoherent := (hs.performAll ops).coherent
  -- the target of the second send is a later version of that of the first one
  obtain ⟨hmem, hname⟩ := hs.coherent.of_find? hm
  obtain ⟨m₁, hmem₁, hlater⟩ := Store.exists_later hs ops hmem
  obtain ⟨hmem', -⟩ := hcoherent.of_find? hm'
  obtain rfl := hcoherent.eq_of_uri_eq hmem₁ hmem' (hlater.names.uri.trans (hmv.trans hmv'.symm))
  obtain ⟨n, hn, c, hsent⟩ := hstored
  have hr : r.isBlank = false := by simpa [Intent.isNamed, Intent.action?] using hnamed
  have href : n.RefersTo a.reference m₁ :=
    hsent.refersTo hlater ((Message.refersTo_single rfl).2 ⟨rfl, hr, hname⟩)
  have haccept : a = .accept → Stands (t.performAll ops).toList n := by
    rintro rfl
    exact hstand n hn href.has
  have hretract : a = .retract → m₁.direction = .outgoing := by
    rintro rfl
    simp only [Action.qualifies, Message.isOwn, Bool.and_eq_true, decide_eq_true_eq] at hq
    exact hlater.direction.trans hq.1
  have hdecided := Action.isDecided_of_settled (Backlinks.status_describes hcoherent m₁) hn href
    hsent.direction hsent.hasContent ha haccept hretract
  rw [Action.undecided_of_qualifies (Action.settles_iff.1 ha') hq'] at hdecided
  cases hdecided

end

/-! ## Two sends at the same time -/

variable {ι : Type}

namespace Sound

variable {settings : Settings} {u : Uri} {intents : ι → Intent} {stamps : ι → Stamp} {s : Session}
  {t₀ : Store} {p : Pool ι (Except SessionError Uri)}

/-- Once a send that settles a message has stored its own, any other that would settle the same
message is refused. -/
theorem refused (ht₀ : s.store? u = some t₀) (hs : t₀.Reachable)
    (h : Sound settings u intents stamps s p) {j : ι} (hnamed : (intents j).isNamed = true)
    (hstand : ∀ t ∈ p.session.store? u, t.AcceptsStand)
    (hpassed : Passed settings u (intents j) (stamps j) (p.calls j).met)
    (hstored : 2 ≤ (p.calls j).met.length) {v : Uri}
    (hv : (p.calls j).target? u (intents j) = some v) {intent : Intent} {stamp : Stamp}
    (hv' : p.session.settledBy u intent = some v) (d : Dispatch) :
    prepare settings p.session u intent stamp ≠ .ok d := by
  obtain ⟨x, d', hx, hd'⟩ := hpassed
  rw [Progress.target?, hx] at hv
  obtain ⟨hbefore, hgrows⟩ := h.met j x (List.mem_of_mem_head? hx)
  obtain ⟨ops, hops⟩ := hbefore.store? ht₀
  obtain ⟨t, ht, -⟩ := h.store? ht₀ hs
  exact refused_of_settled hnamed hv hd' hops (hs.performAll ops) hgrows ht (hstand t ht)
    ((h.traced j t ht).after hstored) hv'

variable [DecidableEq ι]

/-- Of two sends that settle one message, the second one to be let through is let through while the
first one has not stored its message. -/
theorem isCleared_of_turn (ht₀ : s.store? u = some t₀) (hs : t₀.Reachable)
    (h : Sound settings u intents stamps s p) (w : Turn ι) {j : ι} (hne : j ≠ w.call)
    (hnamed : (intents j).isNamed = true) (hstand : ∀ t ∈ p.session.store? u, t.AcceptsStand)
    (hnot : ¬ Passed settings u (intents w.call) (stamps w.call) (p.calls w.call).met)
    (hself : Passed settings u (intents w.call) (stamps w.call) ((p.turn w).calls w.call).met)
    (hother : Passed settings u (intents j) (stamps j) (p.calls j).met) {v : Uri}
    (hv : ((p.turn w).calls w.call).target? u (intents w.call) = some v)
    (hv' : (p.calls j).target? u (intents j) = some v) :
    ((p.turn w).calls w.call).isCleared = true ∧ ((p.turn w).calls j).isCleared = true := by
  obtain ⟨hsending, hstep⟩ := (h.sending w.call).step w.node p.session
  rw [← p.calls_turn_self w] at hsending hstep
  have hmet := hstep.met_eq_of_passed hnot hself
  refine ⟨hsending.isCleared_iff.2 ⟨by rw [hmet, List.length_singleton], hself⟩, ?_⟩
  rw [p.calls_turn_of_ne hne]
  refine (h.sending j).isCleared_iff.2 ⟨?_, hother⟩
  obtain ⟨y, d, hy, hd⟩ := hself
  rw [hmet, List.head?_cons, Option.some.injEq] at hy
  subst hy
  rw [Progress.target?, hmet] at hv
  have hlt : ¬ 2 ≤ (p.calls j).met.length := fun hstored =>
    h.refused ht₀ hs hnamed hstand hother hstored hv' hv d hd
  have hpos : 0 < (p.calls j).met.length := by
    obtain ⟨x, -, hx, -⟩ := hother
    exact List.length_pos_of_mem (List.mem_of_mem_head? hx)
  omega

/-- Both of two such sends are let through after a turn, and were not before, only if the turn
leaves both between their check and the storing of their message. -/
theorem areCleared_of_turn (ht₀ : s.store? u = some t₀) (hs : t₀.Reachable)
    (h : Sound settings u intents stamps s p) (w : Turn ι) {i j : ι} (hne : i ≠ j)
    (hnamed : (intents i).isNamed = true ∧ (intents j).isNamed = true)
    (hstand : ∀ t ∈ p.session.store? u, t.AcceptsStand) {v : Uri}
    (hv : ((p.turn w).calls i).target? u (intents i) = some v)
    (hv' : ((p.turn w).calls j).target? u (intents j) = some v)
    (hnot : ¬ (Passed settings u (intents i) (stamps i) (p.calls i).met ∧
      Passed settings u (intents j) (stamps j) (p.calls j).met))
    (hi : Passed settings u (intents i) (stamps i) ((p.turn w).calls i).met)
    (hj : Passed settings u (intents j) (stamps j) ((p.turn w).calls j).met) :
    ((p.turn w).calls i).isCleared = true ∧ ((p.turn w).calls j).isCleared = true := by
  by_cases hwi : i = w.call
  · subst hwi
    rw [p.calls_turn_of_ne hne.symm] at hj hv'
    exact h.isCleared_of_turn ht₀ hs w hne.symm hnamed.2 hstand (fun hi' => hnot ⟨hi', hj⟩) hi hj
      hv hv'
  · rw [p.calls_turn_of_ne hwi] at hi hv
    by_cases hwj : j = w.call
    · subst hwj
      have hcleared := h.isCleared_of_turn ht₀ hs w hne hnamed.1 hstand
        (fun hj' => hnot ⟨hi, hj'⟩) hj hi hv' hv
      exact hcleared.symm
    · rw [p.calls_turn_of_ne hwj] at hj
      exact absurd ⟨hi, hj⟩ hnot

/-- What stands at the end of a run stood before. -/
theorem acceptsStand (ht₀ : s.store? u = some t₀) (hs : t₀.Reachable)
    (hdistinct : Function.Injective fun i => eventUri settings (stamps i))
    (h : Sound settings u intents stamps s p) (ws : List (Turn ι))
    (hstand : ∀ t ∈ (p.run ws).session.store? u, t.AcceptsStand) :
    ∀ t ∈ p.session.store? u, t.AcceptsStand := by
  intro t ht
  obtain ⟨t', ht', hreach⟩ := h.store? ht₀ hs
  obtain rfl := Option.some.inj (ht'.symm.trans ht)
  obtain ⟨-, hgrows⟩ := h.run ht₀ hs hdistinct ws
  obtain ⟨ops, hops⟩ := hgrows.store? ht'
  exact .of_performAll hreach (hstand _ hops)

/-- Two sends that settle one message are both let through only if at some point both were between
their check and the storing of their message. -/
theorem exists_overlap (ht₀ : s.store? u = some t₀) (hs : t₀.Reachable)
    (hdistinct : Function.Injective fun i => eventUri settings (stamps i))
    (h : Sound settings u intents stamps s p) (ws : List (Turn ι)) {i j : ι} (hne : i ≠ j)
    (hnamed : (intents i).isNamed = true ∧ (intents j).isNamed = true) {v : Uri}
    (hstand : ∀ t ∈ (p.run ws).session.store? u, t.AcceptsStand)
    (hv : ((p.run ws).calls i).target? u (intents i) = some v)
    (hv' : ((p.run ws).calls j).target? u (intents j) = some v)
    (hnot : ¬ (Passed settings u (intents i) (stamps i) (p.calls i).met ∧
      Passed settings u (intents j) (stamps j) (p.calls j).met))
    (hi : Passed settings u (intents i) (stamps i) ((p.run ws).calls i).met)
    (hj : Passed settings u (intents j) (stamps j) ((p.run ws).calls j).met) :
    ∃ pre, pre <+: ws ∧ ((p.run pre).calls i).isCleared = true ∧
      ((p.run pre).calls j).isCleared = true := by
  induction ws generalizing p with
  | nil => exact absurd ⟨hi, hj⟩ hnot
  | cons w ws ih =>
    by_cases hboth : Passed settings u (intents i) (stamps i) ((p.turn w).calls i).met ∧
        Passed settings u (intents j) (stamps j) ((p.turn w).calls j).met
    · have htarget {k : ι} (hk : ((p.run (w :: ws)).calls k).target? u (intents k) = some v)
          (hpassed : Passed settings u (intents k) (stamps k) ((p.turn w).calls k).met) :
          ((p.turn w).calls k).target? u (intents k) = some v := by
        obtain ⟨x, d, hx, -⟩ := hpassed
        rw [Progress.target?, p.run_cons, Pool.head?_met_run hx ws] at hk
        rw [Progress.target?, hx]
        exact hk
      have hcleared := h.areCleared_of_turn ht₀ hs w hne hnamed
        (h.acceptsStand ht₀ hs hdistinct (w :: ws) hstand) (htarget hv hboth.1)
        (htarget hv' hboth.2) hnot hboth.1 hboth.2
      exact ⟨[w], ⟨ws, rfl⟩, hcleared⟩
    · obtain ⟨hturn, -⟩ := h.turn ht₀ hs hdistinct w
      obtain ⟨pre, hpre, hcleared⟩ := ih hturn hstand hv hv' hboth hi hj
      exact ⟨w :: pre, (List.prefix_cons_inj w).2 hpre, hcleared⟩

end Sound

section

variable [DecidableEq ι] {settings : Settings} {u : Uri} {intents : ι → Intent}
  {stamps : ι → Stamp} {s : Session} {t₀ : Store}

/-- Two sends of one run that settle one message, and are over. -/
structure BothSettle (u : Uri) (intents : ι → Intent) (p : Pool ι (Except SessionError Uri))
    (i j : ι) (v : Uri) : Prop where
  ne : i ≠ j
  first : (p.calls i).target? u (intents i) = some v
  second : (p.calls j).target? u (intents j) = some v
  firstOver : (p.calls i).result?.isSome = true
  secondOver : (p.calls j).result?.isSome = true

/-- Among any sends over one connection, in any order of their steps, with new identifiers and while
no accept is rejected or retracted: of two that settle one message both are handed to the node
exactly if at some point both were between their check and the storing of their message. -/
theorem settled_twice_iff (ht₀ : s.store? u = some t₀) (hs : t₀.Reachable)
    (hfresh : ∀ i, t₀.get? (eventUri settings (stamps i)) = none)
    (hdistinct : Function.Injective fun i => eventUri settings (stamps i))
    {turns : List (Turn ι)}
    (hstand : ∀ t ∈ ((sends settings u intents stamps s).run turns).session.store? u,
      t.AcceptsStand)
    {i j : ι} (hnamed : (intents i).isNamed = true ∧ (intents j).isNamed = true) {v : Uri}
    (h : BothSettle u intents ((sends settings u intents stamps s).run turns) i j v) :
    (((sends settings u intents stamps s).run turns).calls i).handedOver ≠ [] ∧
        (((sends settings u intents stamps s).run turns).calls j).handedOver ≠ [] ↔
      ∃ pre, pre <+: turns ∧
        (((sends settings u intents stamps s).run pre).calls i).isCleared = true ∧
        (((sends settings u intents stamps s).run pre).calls j).isCleared = true := by
  have hstart : Sound settings u intents stamps s (sends settings u intents stamps s) :=
    .start ht₀ hfresh
  have hsound (ws : List (Turn ι)) := (hstart.run ht₀ hs hdistinct ws).1
  constructor
  · rintro ⟨hi, hj⟩
    refine hstart.exists_overlap ht₀ hs hdistinct turns h.ne hnamed hstand h.first h.second ?_
      (((hsound turns).sending i).passed_of_handedOver hi)
      (((hsound turns).sending j).passed_of_handedOver hj)
    -- before their first step no send is let through
    rintro ⟨⟨x, -, hx, -⟩, -⟩
    cases hx
  · rintro ⟨pre, ⟨rest, rfl⟩, hi, hj⟩
    have hpassed {k : ι} (hk : (((sends settings u intents stamps s).run pre).calls k).isCleared =
        true) : Passed settings u (intents k) (stamps k)
          (((sends settings u intents stamps s).run (pre ++ rest)).calls k).met := by
      obtain ⟨-, x, d, hx, hd⟩ := ((hsound pre).sending k).isCleared_iff.1 hk
      rw [Pool.run_append]
      exact ⟨x, d, Pool.head?_met_run hx rest, hd⟩
    exact ⟨((hsound _).sending i).handedOver_of_passed (hpassed hi) h.firstOver,
      ((hsound _).sending j).handedOver_of_passed (hpassed hj) h.secondOver⟩

end

/-- A node that takes every message, and tells a name of its own for it or none. -/
def takingNode (remote : Option Uri) : Node
  | .send _ _ => .ok ⟨remote⟩
  | .fetchAtom _ | .fetchContainer _ | .fetchConnection _ | .fetchMessages _ _
  | .fetchMessage _ _ | .fetchProtocolSets _ => .error ⟨none, "unreachable"⟩

/-- Turns of calls in some order, all with one node. -/
def turnsOf {ι : Type} (node : Node) (order : List ι) : List (Turn ι) :=
  order.map fun i => ⟨i, node⟩

def acceptOrReject : Bool → Intent
  | true => .negotiate .accept ⟨"p"⟩
  | false => .negotiate .reject ⟨"p"⟩

def answerStamps : Bool → Stamp
  | true => ⟨"1", 1⟩
  | false => ⟨"2", 2⟩

/-- Accepting and rejecting the proposal of the counterpart. -/
def bothAnswers (turns : List (Turn Bool)) : Pool Bool (Except SessionError Uri) :=
  (sends .default ⟨"c"⟩ acceptOrReject answerStamps offeredDeal).run turns

/-- Each call takes its steps right after those of the other one. -/
def sideBySide : List (Turn Bool) :=
  turnsOf (takingNode none) [true, false, true, false, true, false, true, false, true, false]

/-- The rejection begins when the accept is over. -/
def inARow : List (Turn Bool) :=
  turnsOf (takingNode none) [true, true, true, true, true, false, false, false, false, false]

theorem settled_twice_iff_bothAnswers :
    (((bothAnswers sideBySide).calls true).handedOver ≠ [] ∧
      ((bothAnswers sideBySide).calls false).handedOver ≠ []) ∧
    ¬ (((bothAnswers inARow).calls true).handedOver ≠ [] ∧
      ((bothAnswers inARow).calls false).handedOver ≠ []) := by
  have hknown : offeredDeal.store? ⟨"c"⟩ = some offeredConnection.store := by decide
  have hreach : offeredConnection.store.Reachable := Store.reachable_ofList _
  have hfresh (i : Bool) :
      offeredConnection.store.get? (eventUri .default (answerStamps i)) = none := by
    cases i <;> decide
  have hdistinct : Function.Injective fun i => eventUri .default (answerStamps i) := by
    intro i j
    cases i <;> cases j <;> decide
  constructor
  · have hstand : ∀ t ∈ (bothAnswers sideBySide).session.store? ⟨"c"⟩, t.AcceptsStand := by
      decide +kernel
    have hsettle : BothSettle ⟨"c"⟩ acceptOrReject (bothAnswers sideBySide) true false ⟨"p"⟩ :=
      ⟨by decide, by decide +kernel, by decide +kernel, by decide +kernel, by decide +kernel⟩
    refine (settled_twice_iff hknown hreach hfresh hdistinct hstand ⟨rfl, rfl⟩ hsettle).2 ?_
    exact ⟨sideBySide.take 4, List.take_prefix _ _, by decide +kernel, by decide +kernel⟩
  · have hstand : ∀ t ∈ (bothAnswers inARow).session.store? ⟨"c"⟩, t.AcceptsStand := by
      decide +kernel
    have hsettle : BothSettle ⟨"c"⟩ acceptOrReject (bothAnswers inARow) true false ⟨"p"⟩ :=
      ⟨by decide, by decide +kernel, by decide +kernel, by decide +kernel, by decide +kernel⟩
    have hnever : ∀ n < inARow.length + 1,
        ¬ (((bothAnswers (inARow.take n)).calls true).isCleared = true ∧
          ((bothAnswers (inARow.take n)).calls false).isCleared = true) := by decide +kernel
    intro hboth
    obtain ⟨pre, hpre, hcleared⟩ :=
      (settled_twice_iff hknown hreach hfresh hdistinct hstand ⟨rfl, rfl⟩ hsettle).1 hboth
    rw [List.prefix_iff_eq_take.1 hpre] at hcleared
    exact hnever _ (Nat.lt_succ_of_le hpre.length_le) hcleared

/-- A chat message, and its retraction twice, under a blank name. -/
def retractBlank : Fin 3 → Intent
  | 0 => .chat "hello"
  | 1 | 2 => .negotiate .retract ⟨""⟩

def chattingSession : Session :=
  { Session.start 3 with
    connections := (∅ : UriMap Connection).insert ⟨"c"⟩
      (.fresh ⟨"own"⟩ ⟨"own#s"⟩ ⟨"peer#s"⟩ (.resume .connected)) }

/-- One after the other; the node tells the blank name for the chat message. -/
def retractions : Pool (Fin 3) (Except SessionError Uri) :=
  (sends .default ⟨"c"⟩ retractBlank (fun i => ⟨toString i, i⟩) chattingSession).run
    (turnsOf (takingNode (some ⟨""⟩)) [0, 0, 0, 0, 0] ++
      turnsOf (takingNode none) [1, 1, 1, 1, 1, 2, 2, 2, 2, 2])

/-- A proposal is both accepted and rejected by calls at the same time. And a message that is known
under the blank name is retracted twice, one after the other. No send fails, and no accept is
rejected or retracted. -/
theorem settled_by_two_sends :
    (BothSettle ⟨"c"⟩ acceptOrReject (bothAnswers sideBySide) true false ⟨"p"⟩ ∧
      (∀ i, ((bothAnswers sideBySide).calls i).result? =
        some (.ok (eventUri .default (answerStamps i)))) ∧
      (∀ t ∈ (bothAnswers sideBySide).session.store? ⟨"c"⟩, t.AcceptsStand) ∧
      ∀ i, ((bothAnswers sideBySide).calls i).handedOver.length = 1) ∧
    ∃ v, BothSettle ⟨"c"⟩ retractBlank retractions 1 2 v ∧
      (∀ i, ((retractions.calls i).result?.map Except.isOk) = some true) ∧
      (∀ t ∈ retractions.session.store? ⟨"c"⟩, t.AcceptsStand) ∧
      ∀ i, (retractions.calls i).handedOver.length = 1 := by
  refine ⟨⟨⟨nofun, ?_, ?_, ?_, ?_⟩, ?_, ?_, ?_⟩, eventUri .default ⟨"0", 0⟩,
    ⟨by decide, ?_, ?_, ?_, ?_⟩, ?_, ?_, ?_⟩ <;> decide +kernel

end Call

end Parley
