/-
Messages that a known connection is given again and again: within a page, on overlapping pages,
pushed and paged. Main statement: the connection observes each message that it does not have yet
once, in its first copy, in the order in which the first copies come in, and of the others it
observes nothing; and it has one message more for each name that is new.
-/
import Parley.Proofs.Lifecycle.Arrival

namespace Parley

theorem Store.mem_keys_iff {s : Store} {v : Uri} :
    v ∈ s.messages.keys ↔ (s.get? v).isSome = true :=
  UriMap.mem_keys.trans Option.isSome_iff_exists.symm

namespace Connection

/-- The first copy of a message is the first one of its name. -/
theorem find?_firstCopies (ms : List Message) (v : Uri) :
    (firstCopies ms).find? (·.uri = v) = ms.find? (·.uri = v) := by
  induction ms using firstCopies_induct with
  | nil => rfl
  | cons m ms ih =>
    rw [firstCopies_cons, List.find?_cons, List.find?_cons]
    by_cases e : m.uri = v
    · simp [e]
    · simp only [e, decide_false]
      rw [ih, List.find?_filter]
      congr 1
      funext a
      by_cases ha : a.uri = v <;> simp [ha, Ne.symm e]

/-- The messages that a connection does not have, each in its first copy. -/
def newIn (c : Connection) (ms : List Message) : List Message :=
  firstCopies (ms.filter fun m => (c.store.get? m.uri).isNone)

variable {c d : Connection} {ms : List Message}

theorem nodup_newIn (c : Connection) (ms : List Message) : ((c.newIn ms).map (·.uri)).Nodup :=
  nodup_firstCopies _

theorem get?_of_mem_newIn {m : Message} (h : m ∈ c.newIn ms) : c.store.get? m.uri = none := by
  simpa using (List.mem_filter.1 ((firstCopies_sublist _).subset h)).2

/-- Of a message that the connection does not have, the first copy is the first one of its name. -/
theorem or_find?_newIn (c : Connection) (ms : List Message) (v : Uri) :
    (c.store.get? v).or ((c.newIn ms).find? (·.uri = v)) =
      (c.store.get? v).or (ms.find? (·.uri = v)) := by
  cases hv : c.store.get? v with
  | some m => rfl
  | none =>
    rw [newIn, find?_firstCopies, List.find?_filter]
    congr 2
    funext a
    by_cases ha : a.uri = v <;> simp [ha, hv]

/-- A connection after messages were delivered to it. -/
structure ObservesOnce (c : Connection) (ms : List Message) (d : Connection) : Prop where
  lifecycle : d.lifecycle = (c.newIn ms).foldl Lifecycle.absorb c.lifecycle
  agreementStale : d.agreementStale = true ↔
    c.agreementStale = true ∨ ∃ m ∈ c.newIn ms, m.hasEffects = true
  names : d.store.messages.keys.Perm (c.store.messages.keys ++ (c.newIn ms).map (·.uri))
  size : d.store.size = c.store.size + (c.newIn ms).length
  copies : ∀ v, (d.store.get? v).map Message.unannotated =
    ((c.store.get? v).or (ms.find? (·.uri = v))).map Message.unannotated

/-- The names of the messages are those that were there and those that are new, each once. -/
theorem keys_perm_of_deliver (h : ms.foldl hear (some c) = some d) :
    d.store.messages.keys.Perm (c.store.messages.keys ++ (c.newIn ms).map (·.uri)) := by
  have hget (v : Uri) : (d.store.get? v).isSome =
      ((c.store.get? v).isSome || ((c.newIn ms).find? (·.uri = v)).isSome) := by
    have hv := congrArg Option.isSome (get?_deliver h v)
    rw [effective_some] at hv
    simpa [newIn] using hv
  have hnodup : (c.store.messages.keys ++ (c.newIn ms).map (·.uri)).Nodup := by
    refine List.nodup_append.2 ⟨c.store.messages.nodup_keys, c.nodup_newIn ms, ?_⟩
    rintro v hv _ hw rfl
    obtain ⟨m, hm, rfl⟩ := List.mem_map.1 hw
    rw [Store.mem_keys_iff, get?_of_mem_newIn hm] at hv
    cases hv
  refine (List.perm_ext_iff_of_nodup d.store.messages.nodup_keys hnodup).2 fun v => ?_
  rw [List.mem_append, Store.mem_keys_iff, Store.mem_keys_iff, hget, Bool.or_eq_true]
  simp [List.find?_isSome]

theorem observesOnce_of_deliver (h : ms.foldl hear (some c) = some d) : c.ObservesOnce ms d := by
  obtain ⟨hlifecycle, hstale⟩ := deliver h
  rw [effective_some] at hlifecycle hstale
  have hnames := keys_perm_of_deliver h
  refine ⟨hlifecycle, ?_, hnames, ?_, fun v => ?_⟩
  · rw [hstale, Bool.or_eq_true, List.any_eq_true]
    rfl
  · have hlength := hnames.length_eq
    simpa [UriMap.keys, Store.size, UriMap.size] using hlength
  · rw [get?_deliver h, effective_some, Option.getD_some, ← newIn, or_find?_newIn]

end Connection

/-! ## Pushes and pages -/

/-- How messages come in: one is pushed, or a page of them is fetched. -/
inductive Arrival where
  | pushed (m : Message)
  | paged (page : Page)

namespace Arrival

/-- What it makes a session do. The fetch of a page is claimed before its messages come. -/
def moves (u : Uri) : Arrival → List Move
  | .pushed m => [.event (.messageReceived u m)]
  | .paged page => [.track fun t => (t.claimPage u).2, .event (.messagesLoaded u page)]

/-- The messages in the order in which they are delivered. -/
def messages : Arrival → List Message
  | .pushed m => [m]
  | .paged page => Message.chronological page.messages

theorem delivered_moves (u : Uri) (a : Arrival) :
    (a.moves u).flatMap (·.delivered u) = a.messages := by
  cases a <;> simp [moves, messages, Move.delivered]

theorem onlyDelivers_of_mem_moves {u : Uri} {a : Arrival} {m : Move} (h : m ∈ a.moves u)
    (s : Session) : s.OnlyDelivers u m := by
  cases a with
  | pushed p =>
    obtain rfl := List.mem_singleton.1 h
    exact s.onlyDelivers_messageReceived u u p
  | paged page =>
    rcases List.mem_pair.1 h with rfl | rfl
    · exact s.onlyDelivers_track u _
    · exact s.onlyDelivers_messagesLoaded u u page

end Arrival

namespace Session

/-- Whatever is delivered to a known connection and however often, it observes each message that it
does not have once. -/
theorem messages_observed_once {s : Session} {u : Uri} {c : Connection}
    (hc : s.connections.get? u = some c) (arrivals : List Arrival) :
    ∃ d, (s.moves (arrivals.flatMap (·.moves u))).connections.get? u = some d ∧
      c.ObservesOnce (arrivals.flatMap (·.messages)) d := by
  have hdelivers : s.Throughout (OnlyDelivers u) (arrivals.flatMap (·.moves u)) :=
    throughout_of_forall (fun m hm => by
      obtain ⟨a, -, ha⟩ := List.mem_flatMap.1 hm
      exact Arrival.onlyDelivers_of_mem_moves ha) s
  have hmoves := get?_moves_of_delivers hdelivers
  simp only [List.flatMap_assoc, Arrival.delivered_moves, hc] at hmoves
  have hknown : ((arrivals.flatMap (·.messages)).foldl Connection.hear (some c)).isSome = true :=
    Connection.deliver_isSome_iff.2 (Or.inl rfl)
  obtain ⟨d, hd⟩ := Option.isSome_iff_exists.1 hknown
  exact ⟨d, hmoves.trans hd, Connection.observesOnce_of_deliver hd⟩

/-- A connection that a matcher suggested. -/
def suggestion : Connection := .fresh ⟨"own"⟩ ⟨"own#s"⟩ ⟨"peer#s"⟩ .start

/-- A connect and its acceptance, which come again and again. The first page lists the acceptance
before the connect that it answers, and once more after it. -/
def repeatedHandshake : List Arrival :=
  [.paged ⟨[acceptance, firstConnect, acceptance], none⟩, .pushed firstConnect,
    .paged ⟨[firstConnect, acceptance], none⟩, .pushed acceptance]

theorem messages_observed_once_repeatedHandshake :
    ∃ s : Session, s.connections.get? ⟨"c"⟩ = some suggestion ∧
      ∃ d, (s.moves (repeatedHandshake.flatMap (·.moves ⟨"c"⟩))).connections.get? ⟨"c"⟩ = some d ∧
        d.lifecycle = ⟨.connected, 2⟩ ∧ d.store.size = 2 := by
  have hc : ({ Session.start 3 with connections := (∅ : UriMap Connection).insert ⟨"c"⟩ suggestion }
      : Session).connections.get? ⟨"c"⟩ = some suggestion := by simp
  have hlisted : Message.chronological [acceptance, firstConnect, acceptance] =
      [firstConnect, acceptance, acceptance] :=
    Message.chronological_eq_of_copies (by decide) (by decide) (by decide)
  have hbydate : Message.chronological [firstConnect, acceptance] = [firstConnect, acceptance] :=
    Message.chronological_eq_of_perm (.refl _) (by decide) (by decide)
  have hnew : suggestion.newIn (repeatedHandshake.flatMap (·.messages)) =
      [firstConnect, acceptance] := by
    simp only [repeatedHandshake, List.flatMap_cons, Arrival.messages, hlisted, hbydate]
    decide +kernel
  obtain ⟨d, hd, honce⟩ := messages_observed_once hc repeatedHandshake
  refine ⟨_, hc, d, hd, ?_, ?_⟩
  · rw [honce.lifecycle, hnew]
    decide
  · rw [honce.size, hnew]
    rfl

end Session

end Parley
