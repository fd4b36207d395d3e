/-
Nobody connects alone. Whatever messages a history holds, and however many of them are illegal where
they stand, a connection that ends up connected was asked for by one side and accepted by the other,
and nothing was closed since it was asked for. An own request is met by the counterpart's connect or
open, and a request of the counterpart by the own open.

The invariant says, of each state, what the history before it has to hold: for the two states of a
request, the request and no close after it; for the connected state, also an answer to it. A close
always ends in the closed state, so the messages after a request that still stands hold none. An
illegal event leaves the state alone, and what the state asks of the history stays true with one
message more.
-/
import Parley.Lifecycle.Machine

namespace Parley

/-! ## Requests and answers -/

namespace Message

/-- The message is a request to connect, from one side. -/
def Asks (m : Message) (side : Direction) : Prop :=
  m.kind = .connect ∧ m.direction = side

/-- The message accepts a request that the given side made. -/
def Accepts (m : Message) : Direction → Prop
  | .outgoing => (m.kind = .connect ∨ m.kind = .opening) ∧ m.direction = .incoming
  | .incoming => m.kind = .opening ∧ m.direction = .outgoing

end Message

/-- In a history there is a request of one side, followed by messages none of which closes. -/
def RequestStands (side : Direction) (since ms : List Message) : Prop :=
  ∃ past a, ms = past ++ a :: since ∧ a.Asks side ∧ ∀ m ∈ since, m.kind ≠ .close

theorem requestStands_new {m : Message} {side : Direction} (h : m.Asks side) (ms : List Message) :
    RequestStands side [] (ms ++ [m]) :=
  ⟨ms, m, rfl, h, fun _ hb => absurd hb List.not_mem_nil⟩

theorem RequestStands.snoc {side : Direction} {since ms : List Message}
    (h : RequestStands side since ms) {m : Message} (hm : m.kind ≠ .close) :
    RequestStands side (since ++ [m]) (ms ++ [m]) := by
  obtain ⟨past, a, rfl, ha, hsince⟩ := h
  refine ⟨past, a, by simp, ha, fun b hb => ?_⟩
  rcases List.mem_append.1 hb with hb | hb
  · exact hsince b hb
  · rw [List.mem_singleton.1 hb]
    exact hm

/-! ## What a state asks of the history before it -/

/-- A history holds what brings a connection to a state and keeps it there. -/
def Accounts (ms : List Message) : ConnectionState → Prop
  | .suggested => ∀ m ∈ ms, m.kind ≠ .connect ∧ m.kind ≠ .close
  | .requestSent => ∃ since, RequestStands .outgoing since ms
  | .requestReceived => ∃ since, RequestStands .incoming since ms
  | .connected => ∃ side since, RequestStands side since ms ∧ ∃ b ∈ since, b.Accepts side
  | .closed => ∃ past a since, ms = past ++ a :: since ∧ a.kind = .close ∧
      ∀ m ∈ since, m.kind ≠ .connect

namespace LifecycleEvent

/-- The kind of the messages that stand for an event. -/
def kind : LifecycleEvent → MessageKind
  | .localConnect | .remoteConnect => .connect
  | .localOpen | .remoteOpen => .opening
  | .localClose | .remoteClose => .close

/-- The side whose messages stand for an event. -/
def side : LifecycleEvent → Direction
  | .localConnect | .localOpen | .localClose => .outgoing
  | .remoteConnect | .remoteOpen | .remoteClose => .incoming

theorem of_ofMessage? {m : Message} {e : LifecycleEvent} (h : ofMessage? m = some e) :
    m.kind = e.kind ∧ m.direction = e.side := by
  unfold ofMessage? at h
  split at h <;> cases h
  all_goals exact ⟨by assumption, by assumption⟩

end LifecycleEvent

namespace Accounts

variable {ms : List Message} {m : Message} {s s' : ConnectionState} {e : LifecycleEvent}

/-- A message that does not move the state is no close unless the connection is closed, and no
connect unless it has been asked for; so the state still has what it asks for. -/
theorem snoc (h : Accounts ms s) (hclose : m.kind = .close → s = .closed)
    (hconnect : m.kind = .connect → s ≠ .suggested ∧ s ≠ .closed) : Accounts (ms ++ [m]) s := by
  cases s with
  | suggested =>
    intro b hb
    rcases List.mem_append.1 hb with hb | hb
    · exact h b hb
    · rw [List.mem_singleton.1 hb]
      exact ⟨fun e => (hconnect e).1 rfl, fun e => nomatch hclose e⟩
  | requestSent =>
    obtain ⟨since, hstands⟩ := h
    exact ⟨_, hstands.snoc fun e => nomatch hclose e⟩
  | requestReceived =>
    obtain ⟨since, hstands⟩ := h
    exact ⟨_, hstands.snoc fun e => nomatch hclose e⟩
  | connected =>
    obtain ⟨side, since, hstands, b, hb, haccepts⟩ := h
    have hstands' := hstands.snoc fun e => nomatch hclose e
    exact ⟨side, _, hstands', b, List.mem_append_left _ hb, haccepts⟩
  | closed =>
    obtain ⟨past, a, since, rfl, ha, hsince⟩ := h
    refine ⟨past, a, since ++ [m], by simp, ha, fun b hb => ?_⟩
    rcases List.mem_append.1 hb with hb | hb
    · exact hsince b hb
    · rw [List.mem_singleton.1 hb]
      exact fun e => (hconnect e).2 rfl

/-- A close leaves a closed connection behind, whatever the history was. -/
theorem closed (hm : m.kind = .close) : Accounts (ms ++ [m]) .closed :=
  ⟨ms, m, [], rfl, hm, fun _ hb => absurd hb List.not_mem_nil⟩

/-- A request that is met by the message connects. -/
theorem connected {side : Direction} {since : List Message} (h : RequestStands side since ms)
    (hm : m.Accepts side) : Accounts (ms ++ [m]) .connected := by
  have hclose : m.kind ≠ .close := by
    cases side with
    | outgoing => rcases hm.1 with e | e <;> simp [e]
    | incoming => simp [hm.1]
  exact ⟨side, _, h.snoc hclose, m, List.mem_append_right _ (List.mem_singleton_self m), hm⟩

/-- A legal event brings what the next state asks for. -/
theorem next (h : Accounts ms s) (he : LifecycleEvent.ofMessage? m = some e)
    (hnext : s.next? e = some s') : Accounts (ms ++ [m]) s' := by
  have hm := LifecycleEvent.of_ofMessage? he
  cases e with
  | localConnect =>
    cases s <;> cases hnext
    · exact ⟨[], requestStands_new hm ms⟩
    · exact ⟨[], requestStands_new hm ms⟩
  | remoteConnect =>
    cases s <;> cases hnext
    · exact ⟨[], requestStands_new hm ms⟩
    · obtain ⟨since, hstands⟩ := h
      exact connected hstands ⟨Or.inl hm.1, hm.2⟩
    · exact ⟨[], requestStands_new hm ms⟩
  | localOpen =>
    cases s <;> cases hnext
    obtain ⟨since, hstands⟩ := h
    exact connected hstands hm
  | remoteOpen =>
    cases s <;> cases hnext
    obtain ⟨since, hstands⟩ := h
    exact connected hstands ⟨Or.inr hm.1, hm.2⟩
  | localClose => cases s <;> cases hnext <;> exact closed hm.1
  | remoteClose => cases s <;> cases hnext <;> exact closed hm.1

/-- An illegal event changes nothing that the state asks for. -/
theorem stay (h : Accounts ms s) (he : LifecycleEvent.ofMessage? m = some e)
    (hnext : s.next? e = none) : Accounts (ms ++ [m]) s := by
  have hm := LifecycleEvent.of_ofMessage? he
  -- the only illegal closes are those of a closed connection, and the illegal connects come later
  -- than a request
  refine h.snoc (fun hclose => ?_) fun hconnect => ?_
  · cases e <;> cases s <;> simp_all [LifecycleEvent.kind, ConnectionState.next?]
  · cases e <;> cases s <;> simp_all [LifecycleEvent.kind, ConnectionState.next?]

theorem absorb {l : Lifecycle} (h : Accounts ms l.state) (m : Message) :
    Accounts (ms ++ [m]) (l.absorb m).state := by
  cases he : LifecycleEvent.ofMessage? m with
  | none =>
    rw [Lifecycle.absorb_of_no_event he]
    refine h.snoc (fun hclose => ?_) fun hconnect => ?_
    · cases hd : m.direction <;> simp [LifecycleEvent.ofMessage?, hclose, hd] at he
    · cases hd : m.direction <;> simp [LifecycleEvent.ofMessage?, hconnect, hd] at he
  | some e =>
    rw [Lifecycle.absorb_of_event he]
    cases hnext : l.state.next? e with
    | none => exact h.stay he hnext
    | some s => exact h.next he hnext

/-- One message at a time, the history grows and the state goes on accounting for it. -/
theorem foldl_absorb (rest : List Message) : ∀ {ms : List Message} {l : Lifecycle},
    Accounts ms l.state → Accounts (ms ++ rest) (rest.foldl Lifecycle.absorb l).state := by
  induction rest with
  | nil =>
    intro ms l h
    rw [List.append_nil]
    exact h
  | cons m rest ih =>
    intro ms l h
    rw [List.append_cons]
    exact ih (h.absorb m)

/-- Every history holds what the state it ends in asks for. -/
theorem ofHistory (ms : List Message) : Accounts ms (Lifecycle.ofHistory ms).state := by
  have hstart : Accounts [] Lifecycle.start.state := fun _ hm => absurd hm List.not_mem_nil
  exact foldl_absorb ms hstart

end Accounts

/-! ## Both sides -/

/-- A history that ends in the connected state has a request after which nothing is closed and,
later, its acceptance by the other side: the counterpart's connect or open for an own connect, and
the own open for a connect of the counterpart. One that ends with a sent (received) request has an
own connect (one of the counterpart) after which nothing is closed. -/
theorem connected_by_both_sides (ms : List Message) :
    ((Lifecycle.ofHistory ms).state = .connected →
      ∃ past a since, ms = past ++ a :: since ∧ (∀ m ∈ since, m.kind ≠ .close) ∧
        ∃ b ∈ since, a.kind = .connect ∧
          (a.direction = .outgoing ∧ b.direction = .incoming ∧
              (b.kind = .connect ∨ b.kind = .opening) ∨
            a.direction = .incoming ∧ b.direction = .outgoing ∧ b.kind = .opening)) ∧
    ((Lifecycle.ofHistory ms).state = .requestSent →
      ∃ past a since, ms = past ++ a :: since ∧ (∀ m ∈ since, m.kind ≠ .close) ∧
        a.kind = .connect ∧ a.direction = .outgoing) ∧
    ((Lifecycle.ofHistory ms).state = .requestReceived →
      ∃ past a since, ms = past ++ a :: since ∧ (∀ m ∈ since, m.kind ≠ .close) ∧
        a.kind = .connect ∧ a.direction = .incoming) := by
  have h := Accounts.ofHistory ms
  refine ⟨fun hs => ?_, fun hs => ?_, fun hs => ?_⟩
  · rw [hs] at h
    obtain ⟨side, since, ⟨past, a, hms, ⟨hkind, hside⟩, hopen⟩, b, hb, haccepts⟩ := h
    refine ⟨past, a, since, hms, hopen, b, hb, hkind, ?_⟩
    cases side with
    | outgoing => exact Or.inl ⟨hside, haccepts.2, haccepts.1⟩
    | incoming => exact Or.inr ⟨hside, haccepts.2, haccepts.1⟩
  · rw [hs] at h
    obtain ⟨since, past, a, hms, ⟨hkind, hside⟩, hopen⟩ := h
    exact ⟨past, a, since, hms, hopen, hkind, hside⟩
  · rw [hs] at h
    obtain ⟨since, past, a, hms, ⟨hkind, hside⟩, hopen⟩ := h
    exact ⟨past, a, since, hms, hopen, hkind, hside⟩

/-- A request of the counterpart that was closed, and an own request that the counterpart opened. The
own open after the close and the second own connect are illegal where they stand. -/
def reopened : List Message :=
  [.bare ⟨"m1"⟩ .connect .incoming, .bare ⟨"m2"⟩ .close .outgoing,
    .bare ⟨"m3"⟩ .opening .outgoing, .bare ⟨"m4"⟩ .connect .outgoing,
    .bare ⟨"m5"⟩ .connect .outgoing, .bare ⟨"m6"⟩ .opening .incoming]

theorem connected_by_both_sides_reopened :
    (Lifecycle.ofHistory reopened).state = .connected ∧
      (∃ past a since, reopened = past ++ a :: since ∧ (∀ m ∈ since, m.kind ≠ .close) ∧
        ∃ b ∈ since, a.kind = .connect ∧
          (a.direction = .outgoing ∧ b.direction = .incoming ∧
              (b.kind = .connect ∨ b.kind = .opening) ∨
            a.direction = .incoming ∧ b.direction = .outgoing ∧ b.kind = .opening)) ∧
      (Lifecycle.ofHistory (reopened.take 5)).state = .requestSent ∧
      (∃ past a since, reopened.take 5 = past ++ a :: since ∧ (∀ m ∈ since, m.kind ≠ .close) ∧
        a.kind = .connect ∧ a.direction = .outgoing) ∧
      (Lifecycle.ofHistory (reopened.take 1)).state = .requestReceived ∧
      ∃ past a since, reopened.take 1 = past ++ a :: since ∧ (∀ m ∈ since, m.kind ≠ .close) ∧
        a.kind = .connect ∧ a.direction = .incoming :=
  ⟨by decide, (connected_by_both_sides reopened).1 (by decide), by decide,
    (connected_by_both_sides (reopened.take 5)).2.1 (by decide), by decide,
    (connected_by_both_sides (reopened.take 1)).2.2 (by decide)⟩

end Parley
