/-
A connect sent while the counterpart sends one too. The own connect moves the lifecycle when the
node acknowledges it, and the connect of the counterpart moves it when it comes in. If it comes in
after the acknowledgement, the two connects meet and the connection is connected. If it comes in
while the own one is under way, it moves a suggested or closed connection to a received request, for
which the own connect is no legal event any more: the acknowledgement changes nothing, and both
sides wait to be accepted.
-/
import Parley.Proofs.Session.Admission
import Parley.Proofs.Session.Interleaving

namespace Parley

/-! ## What a lifecycle hears -/

namespace Lifecycle

/-- The lifecycle after an event, where an illegal one is ignored. -/
def occur (l : Lifecycle) (e : LifecycleEvent) : Lifecycle :=
  match l.state.next? e with
  | some next => ⟨next, l.transitions + 1⟩
  | none => l

/-- Of a history, a lifecycle absorbs the events that the messages stand for. -/
theorem foldl_absorb (ms : List Message) (l : Lifecycle) :
    ms.foldl absorb l = (ms.filterMap LifecycleEvent.ofMessage?).foldl occur l := by
  induction ms generalizing l with
  | nil => rfl
  | cons m ms ih =>
    rw [List.foldl_cons, ih]
    cases h : LifecycleEvent.ofMessage? m with
    | none => rw [absorb_of_no_event h, List.filterMap_cons_none h]
    | some e =>
      rw [absorb_of_event h, List.filterMap_cons_some h, List.foldl_cons]
      rfl

/-- From suggested or closed, connects of both sides connect if the own one is first. -/
theorem state_of_connects {l : Lifecycle} (h : l.state = .suggested ∨ l.state = .closed) :
    ([LifecycleEvent.localConnect, .remoteConnect].foldl occur l).state = .connected ∧
      ([LifecycleEvent.remoteConnect, .localConnect].foldl occur l).state = .requestReceived := by
  rcases h with h | h <;> simp [occur, ConnectionState.next?, h]

end Lifecycle

namespace Session

/-- The events of the messages that moves admit to a connection. -/
def heard (s : Session) (u : Uri) (ms : List Move) : List LifecycleEvent :=
  (s.admitted u ms).filterMap LifecycleEvent.ofMessage?

theorem heard_cons (s : Session) (u : Uri) (m : Move) (ms : List Move) :
    s.heard u (m :: ms) = (m.admitted u (s.connections.get? u)).filterMap
      LifecycleEvent.ofMessage? ++ (s.move m).heard u ms :=
  List.filterMap_append

/-- The move leaves a connection known, and the node's data do not change it. -/
def Undisturbed (u : Uri) (s : Session) (m : Move) : Prop :=
  (s.move m).connections.contains u = true ∧
    (m.describes u = true → (s.move m).connections.get? u = s.connections.get? u)

/-- Undisturbed, a connection moves by the events it hears, and keeps its messages. -/
theorem undisturbed_moves {ms : List Move} {s : Session} {u : Uri} {c : Connection}
    (hc : s.connections.get? u = some c) (h : s.Throughout (Undisturbed u) ms) :
    ∃ d, (s.moves ms).connections.get? u = some d ∧
      d.lifecycle = (s.heard u ms).foldl Lifecycle.occur c.lifecycle ∧ c.store.Keeps d.store := by
  induction ms generalizing s c with
  | nil => exact ⟨c, hc, rfl, .refl _⟩
  | cons m ms ih =>
    obtain ⟨b, hb⟩ := Option.isSome_iff_exists.1 h.1.1
    have hmoved := s.effect_move m u
    rw [hb] at hmoved
    have hlifecycle := hmoved.outcome.lifecycle fun hm => hb.symm.trans (h.1.2 hm)
    have hkeeps := hmoved.outcome.keeps
    obtain ⟨d, hd, hl, hk⟩ := ih hb h.2
    rw [hc, Option.getD_some] at hlifecycle hkeeps
    refine ⟨d, hd, ?_, hkeeps.trans hk⟩
    rw [hl, hlifecycle, heard_cons, hc, List.foldl_append, Lifecycle.foldl_absorb]

end Session

namespace Call

section

variable (u : Uri) (e : Surroundings) (s : Session)

/-- The state in which a send is checked. -/
def checkedState : Session :=
  s.moves (e.others 0)

/-- The state with the own copy of a message stored. -/
def sentState (m : Message) : Session :=
  ((checkedState e s).moves (e.others 1)).apply (.messageSent u m)

/-- The state after the acknowledgement of a message. -/
def acknowledgedState (m : Message) (remote : Option Uri) : Session :=
  ((sentState u e s m).moves (e.others 2)).apply (.sendSucceeded u m.uri remote)

end

/-- A connect that the node accepts, sent over a suggested or closed connection under an unused
name, while nothing else happens to the lifecycle of the connection than one connect that comes in
between the check and the end of the moves `later` that follow the acknowledgement. -/
structure ConnectRace (settings : Settings) (u : Uri) (text : Option String) (e : Surroundings)
    (s : Session) (c : Connection) (m : Message) (remote : Option Uri) (later : List Move) :
    Prop where
  known : (checkedState e s).connections.get? u = some c
  state : c.lifecycle.state = .suggested ∨ c.lifecycle.state = .closed
  composed : m = (compose settings c (.connect text) e.stamp).message
  accepted : e.node 0 (.send u (compose settings c (.connect text) e.stamp)) = .ok ⟨remote⟩
  unused : ∀ b, ((checkedState e s).moves (e.others 1)).connections.get? u = some b →
    b.store.get? m.uri = none
  beforeSent : (checkedState e s).Throughout (Session.Undisturbed u) (e.others 1)
  underWay : (sentState u e s m).Throughout (Session.Undisturbed u) (e.others 2)
  afterwards : (acknowledgedState u e s m remote).Throughout (Session.Undisturbed u) later
  single : (checkedState e s).heard u (e.others 1) ++ ((sentState u e s m).heard u (e.others 2) ++
    (acknowledgedState u e s m remote).heard u later) = [.remoteConnect]

section

variable {settings : Settings} {u : Uri} {text : Option String} {e : Surroundings} {s : Session}
  {c : Connection} {m : Message} {remote : Option Uri} {later : List Move}

theorem checkIntent_connect (h : c.lifecycle.state = .suggested ∨ c.lifecycle.state = .closed)
    (text : Option String) : checkIntent c (.connect text) = .ok () := by
  have hpermits : c.lifecycle.state.permits .connect = true := by
    rcases h with h | h <;> simp [h, ConnectionState.permits]
  simp [checkIntent, Lifecycle.checkSend, Intent.kind, Intent.action?, hpermits]

theorem ConnectRace.runAmong_send (h : ConnectRace settings u text e s c m remote later) :
    ∃ e', (send settings u (.connect text)).runAmong e s =
      (.ok m.uri, e', acknowledgedState u e s m remote) := by
  -- a suggested or closed connection lets the connect through
  have hprepare : prepare settings (checkedState e s) u (.connect text) e.stamp =
      .ok (compose settings c (.connect text) e.stamp) :=
    prepare_of_check h.known (checkIntent_connect h.state text) e.stamp
  refine ⟨e.acted.acted.answered.acted, ?_⟩
  rw [h.composed, Program.runAmong_send]
  unfold checkedState at hprepare
  rw [hprepare]
  simp only [h.accepted]
  rfl

/-- The own copy of a message is stored, and nothing else changes. -/
theorem get?_sentState {b : Connection}
    (hb : ((checkedState e s).moves (e.others 1)).connections.get? u = some b)
    (hunused : b.store.get? m.uri = none) :
    (sentState u e s m).connections.get? u = some { b with store := b.store.add m } := by
  rw [sentState, Session.get?_apply_of_addressee _ rfl, if_pos rfl, hb]
  simp [Connection.after, Store.insert_of_unused hunused]

/-- An acknowledged message moves the lifecycle by the event that it stands for. -/
theorem get?_acknowledgedState {b : Connection} {m' : Message}
    (hb : ((sentState u e s m).moves (e.others 2)).connections.get? u = some b)
    (hm : b.store.get? m.uri = some m') (hsame : m'.unannotated = m.unannotated)
    (remote : Option Uri) :
    ∃ d, (acknowledgedState u e s m remote).connections.get? u = some d ∧
      d.lifecycle = b.lifecycle.absorb m := by
  have hfollows := (b.follows_acknowledge m.uri remote).lifecycle
  rw [hm] at hfollows
  rw [acknowledgedState, Session.get?_apply_of_addressee _ rfl, if_pos rfl, hb]
  refine ⟨b.acknowledge m.uri remote, rfl, hfollows.trans ?_⟩
  exact Lifecycle.absorb_congr hsame

/-- The events of a race happen in order: what is heard before the acknowledgement, the own connect,
and what is heard after it. -/
theorem ConnectRace.lifecycle (h : ConnectRace settings u text e s c m remote later) :
    ∃ d, ((acknowledgedState u e s m remote).moves later).connections.get? u = some d ∧
      d.lifecycle = ((checkedState e s).heard u (e.others 1) ++
        ((sentState u e s m).heard u (e.others 2) ++ .localConnect ::
          (acknowledgedState u e s m remote).heard u later)).foldl Lifecycle.occur c.lifecycle := by
  obtain ⟨b, hb, hbl, -⟩ := Session.undisturbed_moves h.known h.beforeSent
  have hsent := get?_sentState hb (h.unused b hb)
  obtain ⟨w, hw, hwl, hkeeps⟩ := Session.undisturbed_moves hsent h.underWay
  -- the own copy is still there when the acknowledgement comes
  obtain ⟨m', hm', hsame⟩ := hkeeps m.uri m (by rw [Store.get?_add, if_pos rfl])
  obtain ⟨a, ha, hal⟩ := get?_acknowledgedState hw hm' hsame remote
  obtain ⟨d, hd, hdl, -⟩ := Session.undisturbed_moves ha h.afterwards
  have hown : LifecycleEvent.ofMessage? m = some .localConnect := by
    rw [h.composed]
    rfl
  refine ⟨d, hd, ?_⟩
  rw [hdl, hal, hwl, hbl, Lifecycle.absorb_of_event hown, List.foldl_append, List.foldl_append,
    List.foldl_cons]
  rfl

/-- A connect seen from both directions connects exactly if the one that came in was heard after the
acknowledgement of the own one; otherwise the connection waits for the own side to accept. -/
theorem connect_race_connects_iff (h : ConnectRace settings u text e s c m remote later) :
    ∃ e' d, (send settings u (.connect text)).runAmong e s =
        (.ok m.uri, e', acknowledgedState u e s m remote) ∧
      ((acknowledgedState u e s m remote).moves later).connections.get? u = some d ∧
      d.lifecycle.state =
        if (acknowledgedState u e s m remote).heard u later = [] then .requestReceived
        else .connected := by
  obtain ⟨e', hrun⟩ := h.runAmong_send
  obtain ⟨d, hd, hl⟩ := h.lifecycle
  have hsingle := h.single
  rw [← List.append_assoc] at hl hsingle
  refine ⟨e', d, hrun, hd, ?_⟩
  rw [hl]
  obtain ⟨hownFirst, hownLast⟩ := Lifecycle.state_of_connects h.state
  rcases List.append_eq_singleton_iff.1 hsingle with ⟨hbefore, hlater⟩ | ⟨hbefore, hlater⟩
  · -- the connect was heard afterwards
    rw [hbefore, hlater, if_neg (List.cons_ne_nil _ _)]
    exact hownFirst
  · rw [hbefore, hlater, if_pos rfl]
    exact hownLast

end

/-! ## A connect of the counterpart during the own one, and after it -/

/-- A connection that a matcher suggested. -/
def suggestedConnection : Connection :=
  .fresh ⟨"own"⟩ ⟨"own#s"⟩ ⟨"peer#s"⟩ .start

def suggestedSession : Session :=
  { Session.start 3 with
    connections := (∅ : UriMap Connection).insert ⟨"c"⟩ suggestedConnection }

def incomingConnect : Move :=
  .event (.messageReceived ⟨"c"⟩ (.bare ⟨"m"⟩ .connect .incoming))

/-- A node that accepts what is sent and answers nothing else. -/
def acceptingNode : Node
  | .send _ _ => .ok ⟨none⟩
  | _ => .error ⟨none, "unreachable"⟩

def ownConnect : Message :=
  (compose .default suggestedConnection (.connect none) ⟨"e", 0⟩).message

/-- What the others do while the own connect is under way. -/
def duringConnect (underWay : List Move) : Surroundings :=
  { Surroundings.alone ⟨"e", 0⟩ acceptingNode with
    others := fun n => if n = 2 then underWay else [] }

def crossedRun (underWay : List Move) : Except SessionError Uri × Surroundings × Session :=
  (send .default ⟨"c"⟩ (.connect none)).runAmong (duringConnect underWay) suggestedSession

def crossedState (underWay : List Move) : Session :=
  acknowledgedState ⟨"c"⟩ (duringConnect underWay) suggestedSession ownConnect none

theorem suggested_race (underWay later : List Move)
    (hunderWay : (sentState ⟨"c"⟩ (duringConnect underWay) suggestedSession ownConnect).Throughout
      (Session.Undisturbed ⟨"c"⟩) underWay)
    (hlater : (crossedState underWay).Throughout (Session.Undisturbed ⟨"c"⟩) later)
    (hsingle : (sentState ⟨"c"⟩ (duringConnect underWay) suggestedSession ownConnect).heard ⟨"c"⟩
      underWay ++ (crossedState underWay).heard ⟨"c"⟩ later = [.remoteConnect]) :
    ConnectRace .default ⟨"c"⟩ none (duringConnect underWay) suggestedSession suggestedConnection
      ownConnect none later := by
  have hknown : suggestedSession.connections.get? ⟨"c"⟩ = some suggestedConnection := by decide
  refine ⟨hknown, Or.inl rfl, rfl, rfl, fun b hb => ?_, trivial, hunderWay, hlater, hsingle⟩
  cases hknown.symm.trans hb
  rfl

theorem connect_race_connects_iff_suggested :
    (∃ e' d, crossedRun [] = (.ok ownConnect.uri, e', crossedState []) ∧
      ((crossedState []).moves [incomingConnect]).connections.get? ⟨"c"⟩ = some d ∧
      d.lifecycle.state = .connected) ∧
    ∃ e' d, crossedRun [incomingConnect] =
        (.ok ownConnect.uri, e', crossedState [incomingConnect]) ∧
      (crossedState [incomingConnect]).connections.get? ⟨"c"⟩ = some d ∧
      d.lifecycle.state = .requestReceived := by
  constructor
  · refine connect_race_connects_iff (suggested_race [] [incomingConnect] trivial ?_ ?_)
    · exact ⟨⟨by decide, nofun⟩, trivial⟩
    · decide
  · refine connect_race_connects_iff (suggested_race [incomingConnect] [] ?_ trivial ?_)
    · exact ⟨⟨by decide, nofun⟩, trivial⟩
    · decide

/-- The connects of both sides cross, and the connection is not connected: the own side, which was
told that its connect arrived, may not even send it again. -/
theorem crossing_connects_not_connected :
    ∃ d, ConnectRace .default ⟨"c"⟩ none (duringConnect [incomingConnect]) suggestedSession
        suggestedConnection ownConnect none [] ∧
      (crossedRun [incomingConnect]).1 = .ok ownConnect.uri ∧
      (crossedRun [incomingConnect]).2.2.connections.get? ⟨"c"⟩ = some d ∧
      d.store.size = 2 ∧ d.lifecycle.state = .requestReceived ∧
      checkIntent d (.connect none) = .error (.sendNotAllowed .connect .requestReceived) := by
  refine ⟨_, suggested_race [incomingConnect] [] ?_ trivial ?_, rfl,
    Option.eq_some_of_isSome ?_, ?_, ?_, rfl⟩
  · exact ⟨⟨by decide, nofun⟩, trivial⟩
  · decide
  · decide
  · decide
  · decide

end Call

end Parley
