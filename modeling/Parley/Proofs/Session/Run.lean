/-
Runs of calls without interleaving: a call runs to its end while one node answers every question.
A run is stretches between the questions, as the client runs it. Sending is refused without a trace,
or it stores the own copy, asks the node once and marks the copy with the outcome. A negotiation
action may be sent exactly if what it refers to is known and qualifies.
-/
import Mathlib.Tactic.MkIffOfInductiveProp
import Parley.Session.Calls

namespace Parley

/-- Someone who answers every question, always in the same way. -/
abbrev Node := (r : Request) → Except NodeFailure r.Answer

namespace Program

variable {α β : Type}

/-- The answer of a call and the state after it, when it runs to its end without interleaving. -/
def run (stamp : Stamp) (node : Node) : Program α → Session → α × Session
  | .done a, s => (a, s)
  | .stamp next, s => (next stamp).run stamp node s
  | .atomic update next, s => (next s).run stamp node (update s)
  | .ask r next, s => (next (node r)).run stamp node s

/-- A run goes on from where its first stretch ends. -/
theorem run_advance (stamp : Stamp) (node : Node) (p : Program α) (s : Session) :
    p.run stamp node s =
      match p.advance stamp s with
      | (.finished a, s) => (a, s)
      | (.waiting r next, s) => (next (node r)).run stamp node s := by
  induction p generalizing s with
  | done a => rfl
  | stamp next ih => exact ih stamp s
  | atomic update next ih => exact ih s (update s)
  | ask r next ih => rfl

theorem run_bind (stamp : Stamp) (node : Node) (p : Program α) (f : α → Program β) (s : Session) :
    (p >>= f).run stamp node s =
      (f (p.run stamp node s).1).run stamp node (p.run stamp node s).2 := by
  show (p.bind f).run stamp node s = _
  induction p generalizing s with
  | done a => rfl
  | stamp next ih => exact ih stamp s
  | atomic update next ih => exact ih s (update s)
  | ask r next ih => exact ih (node r) s

/-- The questions that a call asks when it runs to its end without interleaving. -/
def asked (stamp : Stamp) (node : Node) : Program α → Session → List Request
  | .done _, _ => []
  | .stamp next, s => (next stamp).asked stamp node s
  | .atomic update next, s => (next s).asked stamp node (update s)
  | .ask r next, s => r :: (next (node r)).asked stamp node s

theorem asked_bind (stamp : Stamp) (node : Node) (p : Program α) (f : α → Program β) (s : Session) :
    (p >>= f).asked stamp node s =
      p.asked stamp node s ++ (f (p.run stamp node s).1).asked stamp node (p.run stamp node s).2 := by
  show (p.bind f).asked stamp node s = _
  induction p generalizing s with
  | done a => rfl
  | stamp next ih => exact ih stamp s
  | atomic update next ih => exact ih s (update s)
  | ask r next ih => exact congrArg (r :: ·) (ih (node r) s)

@[simp] theorem run_pure (stamp : Stamp) (node : Node) (a : α) (s : Session) :
    (pure a : Program α).run stamp node s = (a, s) := rfl

@[simp] theorem run_apply (stamp : Stamp) (node : Node) (e : Event) (s : Session) :
    (apply e).run stamp node s = ((), s.apply e) := rfl

@[simp] theorem run_request (stamp : Stamp) (node : Node) (r : Request) (s : Session) :
    (request r).run stamp node s = (node r, s) := rfl

@[simp] theorem asked_apply (stamp : Stamp) (node : Node) (e : Event) (s : Session) :
    (apply e).asked stamp node s = [] := rfl

@[simp] theorem asked_request (stamp : Stamp) (node : Node) (r : Request) (s : Session) :
    (request r).asked stamp node s = [r] := rfl

/-- A question of an inquiry is a question to the node, and the inquiry goes on with what the node's
answer says. -/
theorem ofInquiry_ask (settings : Settings) (q : Question)
    (next : Except AgreementError q.Answer → Inquiry α) :
    ∃ (r : Request) (read : Except NodeFailure r.Answer → Except AgreementError q.Answer),
      ofInquiry settings (.ask q next) =
        .ask r fun answer => ofInquiry settings (next (read answer)) := by
  cases q with
  | sets c =>
    refine ⟨.fetchProtocolSets (settings.agreementUrl c),
      Except.mapError (agreementFailure c), ?_⟩
    rw [ofInquiry]
    congr 1
    funext answer
    cases answer <;> rfl
  | event requester v =>
    refine ⟨.fetchMessage requester v, Except.mapError (agreementFailure v), ?_⟩
    rw [ofInquiry]
    congr 1
    funext answer
    cases answer <;> rfl

/-- What a send does: nothing if the message may not be sent; otherwise the own copy is stored, the
node is asked, and the copy is marked with the outcome. -/
theorem run_send (stamp : Stamp) (node : Node) (settings : Settings) (u : Uri) (intent : Intent)
    (s : Session) :
    (Call.send settings u intent).run stamp node s =
      match Call.prepare settings s u intent stamp with
      | .error e => (.error e, s)
      | .ok d =>
        match node (.send u d) with
        | .ok answer =>
          (.ok d.message.uri,
            (s.apply (.messageSent u d.message)).apply
              (.sendSucceeded u d.message.uri answer.remoteUri))
        | .error e =>
          (.error (.transport e),
            (s.apply (.messageSent u d.message)).apply (.sendFailed u d.message.uri)) := by
  show Program.run stamp node (match Call.prepare settings s u intent stamp with
    | .error e => _
    | .ok d => _) s = _
  cases Call.prepare settings s u intent stamp with
  | error e => rfl
  | ok d =>
    simp only [run_bind, run_apply, run_request]
    cases node (.send u d) with
    | ok answer => rfl
    | error e => rfl

/-- A send asks the node once, unless it is refused. -/
theorem asked_send (stamp : Stamp) (node : Node) (settings : Settings) (u : Uri) (intent : Intent)
    (s : Session) :
    (Call.send settings u intent).asked stamp node s =
      match Call.prepare settings s u intent stamp with
      | .error _ => []
      | .ok d => [.send u d] := by
  show Program.asked stamp node (match Call.prepare settings s u intent stamp with
    | .error e => _
    | .ok d => _) s = _
  cases Call.prepare settings s u intent stamp with
  | error e => rfl
  | ok d =>
    simp only [asked_bind, asked_apply, asked_request, run_apply, run_request, List.nil_append,
      List.singleton_append]
    cases node (.send u d) with
    | ok answer => rfl
    | error e => rfl

end Program

/-! ## What may be sent -/

/-- What may be sent over a connection: a kind that its state allows, and an action only on a known
message on which it may be taken. -/
@[mk_iff]
structure Connection.MaySend (c : Connection) (intent : Intent) : Prop where
  kind : c.lifecycle.state.permits intent.kind = true
  action : ∀ a r, intent.action? = some (a, r) → ∃ m, c.store.find? r = some m ∧
    a.isPermitted m (c.store.backlinks.status m) c.lifecycle.state = true

/-- A reason not to send a message. -/
def NegotiationError.isRefusal : NegotiationError → Bool
  | .sendNotAllowed _ _ | .unknownMessage _ | .actionNotAllowed _ _ => true
  | _ => false

namespace Call

/-- The check lets through what may be sent, and refuses the rest. -/
theorem checkIntent_spec (c : Connection) (intent : Intent) :
    (checkIntent c intent = .ok () ∧ c.MaySend intent) ∨
      ∃ e, checkIntent c intent = .error e ∧ e.isRefusal = true ∧ ¬ c.MaySend intent := by
  unfold checkIntent Lifecycle.checkSend
  by_cases hkind : c.lifecycle.state.permits intent.kind = true
  · rw [if_pos hkind]
    cases haction : intent.action? with
    | none => exact Or.inl ⟨rfl, hkind, fun a r h => by simp [haction] at h⟩
    | some p =>
      obtain ⟨a, r⟩ := p
      cases hfind : c.store.find? r with
      | none =>
        refine Or.inr ⟨.unknownMessage r, by simp [hfind], rfl, fun hmay => ?_⟩
        obtain ⟨m, hm, -⟩ := hmay.action a r haction
        rw [hfind] at hm
        cases hm
      | some m =>
        by_cases hpermitted :
            a.isPermitted m (c.store.backlinks.status m) c.lifecycle.state = true
        · refine Or.inl ⟨by simp [hfind, Action.check, hpermitted], hkind, fun a' r' h => ?_⟩
          cases haction.symm.trans h
          exact ⟨m, hfind, hpermitted⟩
        · refine Or.inr ⟨.actionNotAllowed a m.uri, by simp [hfind, Action.check, hpermitted], rfl,
            fun hmay => ?_⟩
          obtain ⟨m', hm', hpermitted'⟩ := hmay.action a r haction
          cases hfind.symm.trans hm'
          exact hpermitted hpermitted'
  · rw [if_neg hkind]
    exact Or.inr ⟨_, rfl, rfl, fun hmay => hkind hmay.kind⟩

theorem checkIntent_eq_ok_iff {c : Connection} {intent : Intent} :
    checkIntent c intent = .ok () ↔ c.MaySend intent := by
  rcases checkIntent_spec c intent with ⟨hok, hmay⟩ | ⟨e, he, -, hno⟩
  · exact iff_of_true hok hmay
  · rw [he]
    exact iff_of_false nofun hno

/-- An action may be sent exactly if its kind may and what it refers to is known and qualifies. -/
theorem checkIntent_negotiate_iff {c : Connection} {a : Action} {r : Uri} :
    checkIntent c (.negotiate a r) = .ok () ↔
      c.lifecycle.state = .connected ∧ ∃ m, c.store.find? r = some m ∧
        m.admitsActions = true ∧ a.qualifies m (c.store.backlinks.status m) = true := by
  have hpermits : c.lifecycle.state.permits (Intent.negotiate a r).kind = true ↔
      c.lifecycle.state = .connected := by
    simp [Intent.kind, ConnectionState.permits]
  rw [checkIntent_eq_ok_iff, Connection.maySend_iff, hpermits]
  refine and_congr_right fun hstate => ?_
  simp [Intent.action?, Action.isPermitted, hstate]

/-- The message that a connection makes of an intent. -/
def compose (settings : Settings) (c : Connection) (intent : Intent) (stamp : Stamp) : Dispatch :=
  Envelope.compose ⟨settings.nodeUri, c.socket, c.targetSocket⟩ intent stamp

/-- A composed message has no reference but that of its action. -/
theorem mem_references_compose {settings : Settings} {c : Connection} {intent : Intent}
    {stamp : Stamp} {k : ReferenceKind} {r : Uri}
    (h : r ∈ (compose settings c intent stamp).message.references.get k) :
    ∃ a, intent = .negotiate a r ∧ k = a.reference := by
  cases intent with
  | negotiate a r' =>
    rcases References.mem_get_insert.1 h with ⟨hk, rfl, -⟩ | h
    · exact ⟨a, rfl, hk⟩
    · exact absurd h (References.not_mem_none k r)
  | connect | opening | close | chat => exact absurd h (References.not_mem_none k r)

/-- A message is ready to be sent exactly if the check of its connection lets its intent through. -/
theorem prepare_of_check {settings : Settings} {s : Session} {u : Uri} {c : Connection}
    (hu : s.connections.get? u = some c) {intent : Intent} (hok : checkIntent c intent = .ok ())
    (stamp : Stamp) :
    prepare settings s u intent stamp = .ok (compose settings c intent stamp) := by
  simp only [prepare, connection, hu, hok]
  rfl

theorem prepare_eq_ok_iff {settings : Settings} {s : Session} {u : Uri} {intent : Intent}
    {stamp : Stamp} {d : Dispatch} :
    prepare settings s u intent stamp = .ok d ↔
      ∃ c, s.connections.get? u = some c ∧ checkIntent c intent = .ok () ∧
        compose settings c intent stamp = d := by
  cases hu : s.connections.get? u with
  | none => simp [prepare, connection, hu]
  | some c =>
    cases hok : checkIntent c intent with
    | error e => simp [prepare, connection, hu, hok]
    | ok v => simp [prepare_of_check hu hok, hok]

/-- A send that fails leaves the own copy in the store, marked as not sent, and no other trace in
the connection. -/
theorem run_send_failed (settings : Settings) (stamp : Stamp) {u : Uri} {s : Session}
    {c : Connection} {node : Node} {e : NodeFailure} (hu : s.connections.get? u = some c)
    {intent : Intent} (hok : checkIntent c intent = .ok ())
    (hfail : ∀ d, node (.send u d) = .error e) :
    ∃ s', (Call.send settings u intent).run stamp node s = (.error (.transport e), s') ∧
      s'.connections.get? u = some { c with
        store := ((c.store.insert (compose settings c intent stamp).message).2.recordFailure
          (compose settings c intent stamp).message.uri).2 } := by
  rw [Program.run_send, prepare_of_check hu hok]
  simp only [hfail]
  refine ⟨_, rfl, ?_⟩
  simp [Session.apply, Session.effect, Session.updateConnection, hu]

end Call

end Parley
