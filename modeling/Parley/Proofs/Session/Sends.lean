/-
Any number of sends over one connection at once. A send is checked against the first state that it
meets. If it is let through, it stores its message in the second one, asks the node, and records the
outcome in the third one. Main statement: whatever the order of their steps, the stored messages
only grow, every state that a send met leads to the current one, and the message of a send is
stored exactly from the second state that it met.
-/
import Parley.Proofs.Session.Delivery
import Parley.Proofs.Session.Pool

namespace Parley

/-! ## The messages of a connection -/

namespace Session

/-- The messages of a known connection. -/
def store? (s : Session) (u : Uri) : Option Store :=
  (s.connections.get? u).map (·.store)

/-- The second state knows of a connection what the first one does, and what further operations on
its messages made of it. -/
def Grows (u : Uri) (s s' : Session) : Prop :=
  ∃ ops, s'.store? u = (s.store? u).map (·.performAll ops)

namespace Grows

variable {s s' s'' : Session} {u : Uri}

theorem refl (u : Uri) (s : Session) : s.Grows u s :=
  ⟨[], by simp [Store.performAll]⟩

theorem trans (h : s.Grows u s') (h' : s'.Grows u s'') : s.Grows u s'' := by
  obtain ⟨ops, e⟩ := h
  obtain ⟨ops', e'⟩ := h'
  refine ⟨ops ++ ops', ?_⟩
  rw [e', e, Option.map_map]
  congr 1
  funext t
  exact List.foldl_append.symm

theorem store? (h : s.Grows u s') {t : Store} (ht : s.store? u = some t) :
    ∃ ops, s'.store? u = some (t.performAll ops) := by
  obtain ⟨ops, e⟩ := h
  exact ⟨ops, by rw [e, ht, Option.map_some]⟩

end Grows

theorem store?_updateConnection (s : Session) (u : Uri) {f : Connection → Connection}
    {g : Store → Store} (hf : ∀ c, (f c).store = g c.store) :
    (s.updateConnection u f).store? u = (s.store? u).map g := by
  unfold store? updateConnection
  rw [UriMap.get?_modify, if_pos rfl, Option.map_map, Option.map_map]
  congr 1
  funext c
  exact hf c

theorem store?_messageSent (s : Session) (u : Uri) (m : Message) :
    (s.apply (.messageSent u m)).store? u = (s.store? u).map (·.perform (.insert m)) :=
  store?_updateConnection _ u fun _ => rfl

theorem store?_sendFailed (s : Session) (u event : Uri) :
    (s.apply (.sendFailed u event)).store? u =
      (s.store? u).map (·.perform (.recordFailure event)) :=
  store?_updateConnection _ u fun _ => rfl

theorem store?_sendSucceeded (s : Session) (u event : Uri) (remote : Option Uri) :
    (s.apply (.sendSucceeded u event remote)).store? u =
      (s.store? u).map (·.perform (.acknowledge event remote)) := by
  have hstore (c : Connection) :
      (c.acknowledge event remote).store = (c.store.acknowledge event remote).2 := by
    unfold Connection.acknowledge
    cases hm : c.store.get? event with
    | some m => rfl
    | none =>
      have hm' : c.store.messages.get? event = none := hm
      simp [Store.acknowledge, Store.edit, hm']
  show ((({ s with version := s.version + 1 } : Session).takeAcknowledgement u event
    remote).connections.get? u).map (·.store) = _
  rw [get?_takeAcknowledgement, if_pos rfl, Option.map_map]
  unfold store?
  rw [Option.map_map]
  congr 1
  funext c
  exact hstore c

end Session

/-! ## Sends under way -/

namespace Call

/-- What is left of a send after the node's answer. -/
def recordOutcome (u : Uri) (d : Dispatch) (answer : Except NodeFailure Acknowledgement) :
    Program (Except SessionError Uri) :=
  match answer with
  | .ok answer =>
    Program.apply (.sendSucceeded u d.message.uri answer.remoteUri) >>= fun _ =>
      return .ok d.message.uri
  | .error e =>
    Program.apply (.sendFailed u d.message.uri) >>= fun _ => return .error (.transport e)

/-- What is left of a send after the own copy is stored. -/
def handOver (u : Uri) (d : Dispatch) : Program (Except SessionError Uri) :=
  .ask (.send u d) (recordOutcome u d)

/-- What is left of a send after its check. -/
def sendOut (u : Uri) (d : Dispatch) : Program (Except SessionError Uri) :=
  .atomic (fun s => s.apply (.messageSent u d.message)) fun _ => handOver u d

/-- What is left of a send after it got its stamp. -/
def checkAndSend (settings : Settings) (u : Uri) (intent : Intent) (stamp : Stamp) :
    Program (Except SessionError Uri) :=
  .atomic id fun s =>
    match prepare settings s u intent stamp with
    | .error e => .done (.error e)
    | .ok d => sendOut u d

theorem send_eq (settings : Settings) (u : Uri) (intent : Intent) :
    send settings u intent = .stamp (checkAndSend settings u intent) := by
  unfold send checkAndSend
  congr 1
  funext stamp
  congr 1
  funext s
  cases prepare settings s u intent stamp with
  | error e => rfl
  | ok d =>
    show Program.atomic _ _ = Program.atomic _ _
    congr 1
    funext _
    show Program.ask _ _ = Program.ask _ _
    congr 1
    funext answer
    cases answer with
    | ok answer => rfl
    | error e => rfl

/-- Where a send stands, with the states that it met and the questions that it asked. -/
inductive Sending (settings : Settings) (u : Uri) (intent : Intent) (stamp : Stamp) :
    Progress (Except SessionError Uri) → Prop where
  | called : Sending settings u intent stamp ⟨stamp, send settings u intent, [], []⟩
  | stamped : Sending settings u intent stamp ⟨stamp, checkAndSend settings u intent stamp, [], []⟩
  | refused {s : Session} {e : SessionError} (h : prepare settings s u intent stamp = .error e) :
      Sending settings u intent stamp ⟨stamp, .done (.error e), [s], []⟩
  /-- It was checked, and has stored nothing yet. -/
  | cleared {s : Session} {d : Dispatch} (h : prepare settings s u intent stamp = .ok d) :
      Sending settings u intent stamp ⟨stamp, sendOut u d, [s], []⟩
  | stored {s s' : Session} {d : Dispatch} (h : prepare settings s u intent stamp = .ok d) :
      Sending settings u intent stamp ⟨stamp, handOver u d, [s, s'], []⟩
  | answered {s s' : Session} {d : Dispatch} (h : prepare settings s u intent stamp = .ok d)
      (answer : Except NodeFailure Acknowledgement) :
      Sending settings u intent stamp ⟨stamp, recordOutcome u d answer, [s, s'], [.send u d]⟩
  | recorded {s s' s'' : Session} {d : Dispatch} (h : prepare settings s u intent stamp = .ok d)
      (r : Except SessionError Uri) :
      Sending settings u intent stamp ⟨stamp, .done r, [s, s', s''], [.send u d]⟩

/-- How a step of a send changes the state, and what it meets. -/
inductive SendStep (settings : Settings) (u : Uri) (intent : Intent) (stamp : Stamp) :
    List Session → List Session → Session → Session → Prop where
  | quiet (met : List Session) (s : Session) : SendStep settings u intent stamp met met s s
  | check (s : Session) : SendStep settings u intent stamp [] [s] s s
  | store {s₀ : Session} {d : Dispatch} (h : prepare settings s₀ u intent stamp = .ok d)
      (s : Session) :
      SendStep settings u intent stamp [s₀] [s₀, s] s (s.apply (.messageSent u d.message))
  | succeed (s₀ s₁ s : Session) (event : Uri) (remote : Option Uri) :
      SendStep settings u intent stamp [s₀, s₁] [s₀, s₁, s] s
        (s.apply (.sendSucceeded u event remote))
  | fail (s₀ s₁ s : Session) (event : Uri) :
      SendStep settings u intent stamp [s₀, s₁] [s₀, s₁, s] s (s.apply (.sendFailed u event))

namespace Sending

variable {settings : Settings} {u : Uri} {intent : Intent} {stamp : Stamp}
  {p : Progress (Except SessionError Uri)}

/-- A step of a send leads to where a send may stand. -/
theorem step (h : Sending settings u intent stamp p) (node : Node) (s : Session) :
    Sending settings u intent stamp (p.step node s).1 ∧
      SendStep settings u intent stamp p.met (p.step node s).1.met s (p.step node s).2 := by
  cases h with
  | called =>
    rw [send_eq]
    exact ⟨.stamped, .quiet _ _⟩
  | stamped =>
    refine ⟨?_, .check s⟩
    simp only [Progress.step, checkAndSend]
    cases hd : prepare settings s u intent stamp with
    | error e => exact .refused hd
    | ok d => exact .cleared hd
  | refused h => exact ⟨.refused h, .quiet _ _⟩
  | cleared h => exact ⟨.stored h, .store h s⟩
  | stored h => exact ⟨.answered h _, .quiet _ _⟩
  | answered h answer =>
    cases answer with
    | ok answer => exact ⟨.recorded h _, .succeed _ _ _ _ _⟩
    | error e => exact ⟨.recorded h _, .fail _ _ _ _⟩
  | recorded h r => exact ⟨.recorded h r, .quiet _ _⟩

end Sending

/-! ## How far a send is -/

/-- Whether a send that met some states was let through by its check. -/
def Passed (settings : Settings) (u : Uri) (intent : Intent) (stamp : Stamp)
    (met : List Session) : Prop :=
  ∃ s d, met.head? = some s ∧ prepare settings s u intent stamp = .ok d

end Call

namespace Progress

variable {α : Type}

/-- Whether a send was let through by its check and has not stored its message yet. -/
def isCleared (p : Progress α) : Bool :=
  p.met.length = 1 && p.result?.isNone

/-- The messages that a call handed to the node. -/
def handedOver (p : Progress α) : List Dispatch :=
  p.asked.filterMap fun
    | .send _ d => some d
    | _ => none

end Progress

namespace Call

namespace Sending

variable {settings : Settings} {u : Uri} {intent : Intent} {stamp : Stamp}
  {p : Progress (Except SessionError Uri)}

theorem isCleared_iff (h : Sending settings u intent stamp p) :
    p.isCleared = true ↔ p.met.length = 1 ∧ Passed settings u intent stamp p.met := by
  cases h with
  | called => simp [Progress.isCleared]
  | stamped => simp [Progress.isCleared]
  | refused hd => simp [Progress.isCleared, Progress.result?, Passed, hd]
  | cleared hd => simp [Progress.isCleared, Progress.result?, Passed, hd, sendOut]
  | stored hd => simp [Progress.isCleared]
  | answered hd => simp [Progress.isCleared]
  | recorded hd => simp [Progress.isCleared]

theorem passed_of_handedOver (h : Sending settings u intent stamp p) (hp : p.handedOver ≠ []) :
    Passed settings u intent stamp p.met := by
  cases h with
  | called | stamped | refused | cleared | stored => exact absurd rfl hp
  | answered hd | recorded hd => exact ⟨_, _, rfl, hd⟩

theorem handedOver_of_passed (h : Sending settings u intent stamp p)
    (hp : Passed settings u intent stamp p.met) (hover : p.result?.isSome = true) :
    p.handedOver ≠ [] := by
  cases h with
  | called | stamped | cleared | stored => cases hover
  | refused hd =>
    obtain ⟨s, d, hs, hd'⟩ := hp
    cases hs
    rw [hd] at hd'
    cases hd'
  | answered | recorded => exact List.cons_ne_nil _ _

end Sending

/-! ## A send and the stored messages -/

section

/-- The identifier of the message that a send makes with its stamp. -/
def eventUri (settings : Settings) (stamp : Stamp) : Uri :=
  Envelope.eventUri ⟨settings.nodeUri, ⟨""⟩, ⟨""⟩⟩ stamp.id

/-- What is stored of a send that met some states. -/
structure Traced (settings : Settings) (intent : Intent) (stamp : Stamp) (met : List Session)
    (t : Store) : Prop where
  before : met.length ≤ 1 → t.get? (eventUri settings stamp) = none
  after : 2 ≤ met.length → ∃ n ∈ t.toList, ∃ c, (compose settings c intent stamp).message.IsLater n

variable {settings : Settings} {u : Uri} {intent intent' : Intent} {stamp stamp' : Stamp}
  {met met' : List Session} {s s' : Session} {t t' : Store}

namespace SendStep

theorem met_eq (h : SendStep settings u intent stamp met met' s s') :
    met' = met ∨ met' = met ++ [s] := by
  cases h with
  | quiet => exact Or.inl rfl
  | check | store | succeed | fail => exact Or.inr rfl

/-- The step in which a send is let through is the one that meets its first state. -/
theorem met_eq_of_passed (h : SendStep settings u intent stamp met met' s s')
    (hnot : ¬ Passed settings u intent stamp met) (hpassed : Passed settings u intent stamp met') :
    met' = [s] := by
  rcases h.met_eq with rfl | rfl
  · exact absurd hpassed hnot
  · cases met with
    | nil => rfl
    | cons x xs => exact absurd hpassed hnot

/-- A step of a send operates on the messages of the connection, and adds none but its own. -/
theorem operates (h : SendStep settings u intent stamp met met' s s') :
    ∃ ops, s'.store? u = (s.store? u).map (·.performAll ops) ∧
      ∀ (t : Store) (v : Uri), v ≠ eventUri settings stamp → t.get? v = none →
        (t.performAll ops).get? v = none := by
  cases h with
  | quiet | check => exact ⟨[], by simp [Store.performAll], fun _ _ _ h => h⟩
  | store hd s =>
    refine ⟨[.insert _], s.store?_messageSent u _, fun t v hv hnone => ?_⟩
    obtain ⟨c, -, -, rfl⟩ := prepare_eq_ok_iff.1 hd
    exact (t.get?_insert _ v).trans ((if_neg hv).trans hnone)
  | succeed s₀ s₁ s event remote =>
    refine ⟨[.acknowledge event remote], s.store?_sendSucceeded u event remote, ?_⟩
    intro t v _ hnone
    show (t.edit _ _).2.get? v = none
    rw [Store.get?_edit, hnone, Option.map_none, ite_self]
  | fail s₀ s₁ s event =>
    refine ⟨[.recordFailure event], s.store?_sendFailed u event, fun t v _ hnone => ?_⟩
    show (t.edit _ _).2.get? v = none
    rw [Store.get?_edit, hnone, Option.map_none, ite_self]

theorem grows (h : SendStep settings u intent stamp met met' s s') : s.Grows u s' := by
  obtain ⟨ops, hops, -⟩ := h.operates
  exact ⟨ops, hops⟩

end SendStep

namespace Traced

/-- Steps of another send leave the trace of a send as it is. -/
theorem of_other (h : SendStep settings u intent stamp met met' s s') {others : List Session}
    (hne : eventUri settings stamp' ≠ eventUri settings stamp) (ht : s.store? u = some t)
    (hs : t.Reachable) (ht' : s'.store? u = some t')
    (htrace : Traced settings intent' stamp' others t) :
    Traced settings intent' stamp' others t' := by
  obtain ⟨ops, hops, hkeeps⟩ := h.operates
  obtain rfl : t.performAll ops = t' := by
    rw [ht, ht'] at hops
    exact (Option.some.inj hops).symm
  refine ⟨fun hlen => hkeeps t _ hne (htrace.before hlen), fun hlen => ?_⟩
  obtain ⟨n, hn, c, hlater⟩ := htrace.after hlen
  obtain ⟨n', hn', hlater'⟩ := Store.exists_later hs ops hn
  exact ⟨n', hn', c, hlater.trans hlater'⟩

/-- The second state that a send meets gets its message. -/
theorem of_own (h : SendStep settings u intent stamp met met' s s') (ht : s.store? u = some t)
    (hs : t.Reachable) (ht' : s'.store? u = some t')
    (htrace : Traced settings intent stamp met t) : Traced settings intent stamp met' t' := by
  have hlater (hlen : 2 ≤ met.length) :
      ∃ n ∈ t'.toList, ∃ c, (compose settings c intent stamp).message.IsLater n := by
    obtain ⟨ops, hops⟩ := h.grows.store? ht
    obtain rfl := Option.some.inj (ht'.symm.trans hops)
    obtain ⟨n, hn, c, hlater⟩ := htrace.after hlen
    obtain ⟨n', hn', hlater'⟩ := Store.exists_later hs ops hn
    exact ⟨n', hn', c, hlater.trans hlater'⟩
  cases h with
  | quiet =>
    obtain rfl := Option.some.inj (ht.symm.trans ht')
    exact htrace
  | check =>
    obtain rfl := Option.some.inj (ht.symm.trans ht')
    exact ⟨fun _ => htrace.before (Nat.zero_le 1), fun hlen => absurd hlen (by simp)⟩
  | store hd s =>
    refine ⟨fun hlen => absurd hlen (by simp), fun _ => ?_⟩
    obtain ⟨c, -, -, rfl⟩ := prepare_eq_ok_iff.1 hd
    rw [s.store?_messageSent, ht, Option.map_some] at ht'
    obtain rfl := Option.some.inj ht'
    have hnew : t.get? (compose settings c intent stamp).message.uri = none :=
      htrace.before (Nat.le_refl 1)
    refine ⟨_, ?_, c, .refl _⟩
    exact (Store.mem_insert_iff hnew).2 (Or.inl rfl)
  | succeed | fail =>
    exact ⟨fun hlen => absurd hlen (by simp), fun _ => hlater (Nat.le_refl 2)⟩

end Traced

end

/-! ## Sends at the same time -/

variable {ι : Type}

/-- Sends over one connection before their first step. -/
def sends (settings : Settings) (u : Uri) (intents : ι → Intent) (stamps : ι → Stamp)
    (s : Session) : Pool ι (Except SessionError Uri) :=
  .start s stamps fun i => send settings u (intents i)

/-- What holds at every point of a run of sends that began in some state. -/
structure Sound (settings : Settings) (u : Uri) (intents : ι → Intent) (stamps : ι → Stamp)
    (s : Session) (p : Pool ι (Except SessionError Uri)) : Prop where
  sending : ∀ i, Sending settings u (intents i) (stamps i) (p.calls i)
  grows : s.Grows u p.session
  met : ∀ i, ∀ x ∈ (p.calls i).met, s.Grows u x ∧ x.Grows u p.session
  traced : ∀ i, ∀ t, p.session.store? u = some t →
    Traced settings (intents i) (stamps i) (p.calls i).met t

namespace Sound

variable {settings : Settings} {u : Uri} {intents : ι → Intent} {stamps : ι → Stamp} {s : Session}
  {t₀ : Store} {p : Pool ι (Except SessionError Uri)}

theorem start (ht₀ : s.store? u = some t₀)
    (hfresh : ∀ i, t₀.get? (eventUri settings (stamps i)) = none) :
    Sound settings u intents stamps s (sends settings u intents stamps s) where
  sending i := .called
  grows := .refl u s
  met i x hx := absurd hx List.not_mem_nil
  traced i t ht := by
    obtain rfl := Option.some.inj (ht₀.symm.trans ht)
    exact ⟨fun _ => hfresh i, fun hlen => absurd hlen (by simp [sends, Pool.start])⟩

/-- The messages of the connection, which are known from the start, come from operations. -/
theorem store? (h : Sound settings u intents stamps s p) (ht₀ : s.store? u = some t₀)
    (hs : t₀.Reachable) : ∃ t, p.session.store? u = some t ∧ t.Reachable := by
  obtain ⟨ops, hops⟩ := h.grows.store? ht₀
  exact ⟨_, hops, hs.performAll ops⟩

variable [DecidableEq ι]

section

variable (ht₀ : s.store? u = some t₀) (hs : t₀.Reachable)
  (hdistinct : Function.Injective fun i => eventUri settings (stamps i))

include ht₀ hs hdistinct

theorem turn (h : Sound settings u intents stamps s p) (w : Turn ι) :
    Sound settings u intents stamps s (p.turn w) ∧ p.session.Grows u (p.turn w).session := by
  obtain ⟨hsending, hstep⟩ := (h.sending w.call).step w.node p.session
  rw [← p.calls_turn_self w] at hsending hstep
  obtain ⟨t, ht, hreach⟩ := h.store? ht₀ hs
  have hgrows : p.session.Grows u (p.turn w).session := hstep.grows
  refine ⟨⟨fun i => ?_, h.grows.trans hgrows, fun i x hx => ?_, fun i t' ht' => ?_⟩, hgrows⟩
  · by_cases hi : i = w.call
    · subst hi
      exact hsending
    · rw [p.calls_turn_of_ne hi]
      exact h.sending i
  · by_cases hi : i = w.call
    · subst hi
      have hx' : x ∈ (p.calls w.call).met ∨ x = p.session := by
        rcases hstep.met_eq with e | e <;> rw [e] at hx
        · exact Or.inl hx
        · simpa using hx
      rcases hx' with hx' | rfl
      · exact ⟨(h.met _ x hx').1, (h.met _ x hx').2.trans hgrows⟩
      · exact ⟨h.grows, hgrows⟩
    · rw [p.calls_turn_of_ne hi] at hx
      exact ⟨(h.met i x hx).1, (h.met i x hx).2.trans hgrows⟩
  · by_cases hi : i = w.call
    · subst hi
      exact .of_own hstep ht hreach ht' (h.traced _ t ht)
    · rw [p.calls_turn_of_ne hi]
      exact .of_other hstep (fun e => hi (hdistinct e)) ht hreach ht' (h.traced i t ht)

theorem run (h : Sound settings u intents stamps s p) (ws : List (Turn ι)) :
    Sound settings u intents stamps s (p.run ws) ∧ p.session.Grows u (p.run ws).session := by
  induction ws generalizing p with
  | nil => exact ⟨h, .refl u _⟩
  | cons w ws ih =>
    obtain ⟨hturn, hgrows⟩ := h.turn ht₀ hs hdistinct w
    obtain ⟨hrun, hgrows'⟩ := ih hturn
    exact ⟨hrun, hgrows.trans hgrows'⟩

end

end Sound

end Call

end Parley
