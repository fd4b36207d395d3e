/-
A send is refused without a trace, or it is handed to the node once. It is refused exactly if its
connection is unknown, if the state of the connection does not allow the kind, or if what an action
refers to is unknown or does not qualify. Then the state is as it was and the node is not asked.

Otherwise the node is asked once, with the message composed for the connection. If it does not take
the message, the state has one message more, the copy marked as not sent; apart from that copy only
the versions of the state and of the messages of the connection differ.
-/
import Parley.Proofs.Negotiation.FailedSend

namespace Parley

/-! ## Refusals -/

/-- An error by which a send is refused. -/
def SessionError.isRefusal : SessionError → Bool
  | .unknownConnection _ => true
  | .negotiation cause => cause.isRefusal
  | _ => false

/-- A send whose answer is that it is refused. -/
def IsRefused (result : Except SessionError Uri) : Prop :=
  ∃ e, result = .error e ∧ e.isRefusal = true

@[simp] theorem not_isRefused_ok (u : Uri) : ¬ IsRefused (.ok u) := by
  rintro ⟨e, he, -⟩
  cases he

@[simp] theorem isRefused_error_iff {e : SessionError} :
    IsRefused (.error e) ↔ e.isRefusal = true := by
  constructor
  · rintro ⟨e', he, hrefusal⟩
    cases he
    exact hrefusal
  · exact fun hrefusal => ⟨e, rfl, hrefusal⟩

namespace Call

theorem isRefusal_of_prepare {settings : Settings} {s : Session} {u : Uri} {intent : Intent}
    {stamp : Stamp} {e : SessionError} (h : prepare settings s u intent stamp = .error e) :
    e.isRefusal = true := by
  unfold prepare connection at h
  cases hu : s.connections.get? u with
  | none =>
    rw [hu] at h
    cases h
    rfl
  | some c =>
    simp only [hu] at h
    rcases checkIntent_spec c intent with ⟨hok, -⟩ | ⟨e', he', hrefusal, -⟩
    · rw [hok] at h
      cases h
    · rw [he'] at h
      cases h
      exact hrefusal

end Call

/-! ## A copy that was not sent -/

/-- The messages and one more, marked as not sent. -/
def Store.withFailed (s : Store) (n : Message) : Store :=
  { s with
    messages := s.messages.insert n.uri n.failed
    version := s.version + 2 }

/-- The state with one more message over a connection, marked as not sent. -/
def Session.withFailed (s : Session) (u : Uri) (c : Connection) (n : Message) : Session :=
  { s with
    connections := s.connections.insert u { c with store := c.store.withFailed n }
    version := s.version + 2 }

theorem Store.recordFailure_insert_own {s : Store} {n : Message} (hn : s.get? n.uri = none)
    (hremote : n.remoteUri = none) :
    ((s.insert n).2.recordFailure n.uri).2 = s.withFailed n := by
  have hindex : indexRemote s.remoteIndex n.failed.remoteUri n.failed.uri = s.remoteIndex := by
    show indexRemote s.remoteIndex n.remoteUri n.uri = _
    rw [hremote]
    rfl
  rw [recordFailure_insert hn]
  unfold add withFailed
  rw [hindex]
  rfl

/-- Storing the own copy and recording that it was not sent adds the copy so marked. -/
theorem Session.apply_sendFailed_messageSent {s : Session} {u : Uri} {c : Connection} {n : Message}
    (hu : s.connections.get? u = some c) (hn : c.store.get? n.uri = none)
    (hremote : n.remoteUri = none) :
    (s.apply (.messageSent u n)).apply (.sendFailed u n.uri) = s.withFailed u c n := by
  simp only [apply, effect, updateConnection, UriMap.modify_modify hu,
    Store.recordFailure_insert_own hn hremote]
  rfl

namespace Call

/-! ## Refused, or sent once -/

/-- A send that is refused: the answer is a refusal, the state is as it was, and nothing was asked.
-/
structure RefusedWithoutTrace (settings : Settings) (stamp : Stamp) (node : Node) (u : Uri)
    (intent : Intent) (s : Session) : Prop where
  answer : IsRefused ((send settings u intent).run stamp node s).1
  unchanged : ((send settings u intent).run stamp node s).2 = s
  unasked : (send settings u intent).asked stamp node s = []

/-- A send that is handed to the node once: what is sent over which connection and why it may be,
what the answer is, and what is left of it if the node does not take it and its identifier is new.
-/
structure SentOnce (settings : Settings) (stamp : Stamp) (node : Node) (u : Uri) (intent : Intent)
    (s : Session) (c : Connection) (d : Dispatch) : Prop where
  known : s.connections.get? u = some c
  composed : d = compose settings c intent stamp
  once : (send settings u intent).asked stamp node s = [.send u d]
  kind : c.lifecycle.state.permits d.message.kind = true
  action : ∀ a r, intent = .negotiate a r → ∃ m, c.store.find? r = some m ∧
    a.isPermitted m (c.store.backlinks.status m) c.lifecycle.state = true
  taken : ∀ answer, node (.send u d) = .ok answer →
    ((send settings u intent).run stamp node s).1 = .ok d.message.uri
  lost : ∀ e, node (.send u d) = .error e →
    ((send settings u intent).run stamp node s).1 = .error (.transport e)
  trace : ∀ e, node (.send u d) = .error e → c.store.get? d.message.uri = none →
    ((send settings u intent).run stamp node s).2 = s.withFailed u c d.message

section

variable {settings : Settings} {stamp : Stamp} {node : Node} {u : Uri} {intent : Intent}
  {s : Session} {c : Connection}

theorem refusedWithoutTrace_of_prepare {e : SessionError}
    (h : prepare settings s u intent stamp = .error e) :
    RefusedWithoutTrace settings stamp node u intent s := by
  have hrun := Program.run_send stamp node settings u intent s
  have hasked := Program.asked_send stamp node settings u intent s
  simp only [h] at hrun hasked
  refine ⟨?_, ?_, hasked⟩
  · rw [hrun]
    exact isRefused_error_iff.2 (isRefusal_of_prepare h)
  · rw [hrun]

theorem sentOnce_of_maySend (hu : s.connections.get? u = some c) (hmay : c.MaySend intent) :
    SentOnce settings stamp node u intent s c (compose settings c intent stamp) := by
  have hprepare : prepare settings s u intent stamp = .ok (compose settings c intent stamp) :=
    prepare_of_check hu (checkIntent_eq_ok_iff.2 hmay) stamp
  have hrun := Program.run_send stamp node settings u intent s
  have hasked := Program.asked_send stamp node settings u intent s
  simp only [hprepare] at hrun hasked
  constructor
  case known => exact hu
  case composed => rfl
  case once => exact hasked
  case kind => exact hmay.kind
  case action =>
    rintro a r rfl
    exact hmay.action a r rfl
  case taken =>
    intro answer hanswer
    rw [hrun, hanswer]
  case lost =>
    intro e he
    rw [hrun, he]
  case trace =>
    intro e he hfresh
    rw [hrun, he]
    exact Session.apply_sendFailed_messageSent hu hfresh rfl

theorem SentOnce.not_isRefused {d : Dispatch}
    (h : SentOnce settings stamp node u intent s c d) :
    ¬ IsRefused ((send settings u intent).run stamp node s).1 := by
  cases hnode : node (.send u d) with
  | ok answer =>
    rw [h.taken answer hnode]
    exact not_isRefused_ok _
  | error e =>
    rw [h.lost e hnode, isRefused_error_iff]
    exact Bool.false_ne_true

end

/-- A send leaves no trace if it is refused, and otherwise it is handed to the node once. It is
refused exactly if the connection is unknown or the message may not be sent over it. -/
theorem refused_or_sent_once (settings : Settings) (stamp : Stamp) (node : Node) (u : Uri)
    (intent : Intent) (s : Session) :
    (IsRefused ((send settings u intent).run stamp node s).1 →
      RefusedWithoutTrace settings stamp node u intent s) ∧
    (¬ IsRefused ((send settings u intent).run stamp node s).1 → ∃ c d,
      SentOnce settings stamp node u intent s c d) ∧
    (IsRefused ((send settings u intent).run stamp node s).1 ↔
      ¬ ∃ c, s.connections.get? u = some c ∧ c.MaySend intent) := by
  cases hprepare : prepare settings s u intent stamp with
  | error e =>
    have hrefused : RefusedWithoutTrace settings stamp node u intent s :=
      refusedWithoutTrace_of_prepare hprepare
    refine ⟨fun _ => hrefused, fun h => absurd hrefused.answer h,
      iff_of_true hrefused.answer ?_⟩
    rintro ⟨c, hu, hmay⟩
    rw [prepare_of_check hu (checkIntent_eq_ok_iff.2 hmay) stamp] at hprepare
    cases hprepare
  | ok d =>
    obtain ⟨c, hu, hok, -⟩ := prepare_eq_ok_iff.1 hprepare
    have hmay := checkIntent_eq_ok_iff.1 hok
    have hsent : SentOnce settings stamp node u intent s c _ := sentOnce_of_maySend hu hmay
    refine ⟨fun h => absurd h hsent.not_isRefused, fun _ => ⟨c, _, hsent⟩,
      iff_of_false hsent.not_isRefused ?_⟩
    exact fun h => h ⟨c, hu, hmay⟩

/-- An accept that the node does not take leaves its copy, and a retraction of the counterpart's
proposal is refused. -/
theorem refused_or_sent_once_offeredDeal :
    (∃ d, failedAccept.2 = offeredDeal.withFailed ⟨"c"⟩ offeredConnection d.message ∧
      (send .default ⟨"c"⟩ (.negotiate .accept ⟨"p"⟩)).asked ⟨"e", 0⟩ silentNode offeredDeal =
        [.send ⟨"c"⟩ d]) ∧
    RefusedWithoutTrace .default ⟨"e", 0⟩ silentNode ⟨"c"⟩ (.negotiate .retract ⟨"p"⟩)
      offeredDeal := by
  have hu : offeredDeal.connections.get? ⟨"c"⟩ = some offeredConnection := by decide
  constructor
  · obtain ⟨-, hsent, hrefused⟩ := refused_or_sent_once .default ⟨"e", 0⟩ silentNode ⟨"c"⟩
      (.negotiate .accept ⟨"p"⟩) offeredDeal
    have hmay : offeredConnection.MaySend (.negotiate .accept ⟨"p"⟩) :=
      checkIntent_eq_ok_iff.1 (by decide)
    obtain ⟨c, d, h⟩ := hsent fun hr => hrefused.1 hr ⟨offeredConnection, hu, hmay⟩
    obtain rfl : offeredConnection = c := Option.some.inj (hu.symm.trans h.known)
    refine ⟨d, h.trace _ rfl ?_, h.once⟩
    rw [h.composed]
    decide
  · obtain ⟨hrefused, -, hiff⟩ := refused_or_sent_once .default ⟨"e", 0⟩ silentNode ⟨"c"⟩
      (.negotiate .retract ⟨"p"⟩) offeredDeal
    refine hrefused (hiff.2 ?_)
    rintro ⟨c, hc, hmay⟩
    obtain rfl : offeredConnection = c := Option.some.inj (hu.symm.trans hc)
    exact absurd (checkIntent_eq_ok_iff.2 hmay) (by decide)

end Call

end Parley
