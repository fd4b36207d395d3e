/-
The lifecycle of a connection that its messages made, beside the replay of its stored messages. The
lifecycle absorbs the first copy of each message as it comes in, page by page and push by push; the
replay goes through the stored messages by date. Both skip illegal events, but which events are
legal depends on the order, so the two are the same only for some orders of arrival, such as that by
date. Pages come newest first, and only within a page the order is that by date.
-/
import Parley.Proofs.Session.Moves
import Parley.Proofs.Store.Chronology

namespace Parley

/-! ## Histories -/

namespace Message

theorem find?_uri_of_mem {ms : List Message} (h : (ms.map (·.uri)).Nodup) {m : Message}
    (hm : m ∈ ms) : ms.find? (·.uri = m.uri) = some m := by
  cases hf : ms.find? (·.uri = m.uri) with
  | none => simpa using List.find?_eq_none.1 hf m hm
  | some a =>
    have ha : a.uri = m.uri := by simpa using List.find?_some hf
    rw [List.inj_on_of_nodup_map h (List.mem_of_find?_eq_some hf) hm ha]

end Message

namespace Lifecycle

/-- Messages that stand for no event make no difference to a history. -/
theorem ofHistory_filter (ms : List Message) :
    ofHistory (ms.filter fun m => (LifecycleEvent.ofMessage? m).isSome) = ofHistory ms := by
  unfold ofHistory
  rw [List.foldl_filter]
  congr 1
  funext l m
  cases h : LifecycleEvent.ofMessage? m with
  | none => simp [absorb_of_no_event h]
  | some e => simp

/-- Histories that are the same by date and apart from annotations have the same replay. -/
theorem ofHistory_chronological_congr {ms ms' : List Message}
    (h : (ms.map Message.unannotated).Perm (ms'.map Message.unannotated))
    (hnodup : (ms.map (·.uri)).Nodup) :
    ofHistory (Message.chronological ms) = ofHistory (Message.chronological ms') := by
  have huris : ((ms.map Message.unannotated).map (·.uri)).Nodup := by
    rw [List.map_map]
    exact hnodup
  have hreplay (l : List Message) : ofHistory (Message.chronological l) =
      ofHistory (Message.chronological (l.map Message.unannotated)) := by
    rw [← Message.chronological_map Message.unannotated (fun _ => rfl) fun _ => rfl,
      ofHistory_map Message.unannotated fun _ => rfl]
  rw [hreplay ms, hreplay ms', Message.chronological_congr h huris]

/-- A history whose events are in order by date is replayed by date to the same end. -/
theorem ofHistory_eq_of_pairwise_before {ms : List Message} (hnodup : (ms.map (·.uri)).Nodup)
    (h : (ms.filter fun m => (LifecycleEvent.ofMessage? m).isSome).Pairwise
      fun a b => a.before b = true) :
    ofHistory ms = ofHistory (Message.chronological ms) := by
  have hperm := (Message.chronological_perm ms).filter fun m => (LifecycleEvent.ofMessage? m).isSome
  have hsorted := (Message.chronological_pairwise ms).filter
    fun m => (LifecycleEvent.ofMessage? m).isSome
  have huris : ((ms.filter fun m => (LifecycleEvent.ofMessage? m).isSome).map (·.uri)).Nodup :=
    hnodup.sublist (List.filter_sublist.map _)
  rw [← ofHistory_filter ms, ← ofHistory_filter (Message.chronological ms),
    Message.eq_of_pairwise_before hperm.symm
      (fun _ ha _ hb => List.inj_on_of_nodup_map huris ha hb) h hsorted]

end Lifecycle

/-! ## Deliveries -/

namespace Move

/-- The messages that a move delivers to a connection, in the order in which they are taken in. -/
def delivered (u : Uri) : Move → List Message
  | .event (.messagesLoaded v page) => if v = u then Message.chronological page.messages else []
  | .event (.messageReceived v m) => if v = u then [m] else []
  | _ => []

end Move

namespace Session

/-- The move delivers messages to a connection, or it leaves the connection as it is. -/
def OnlyDelivers (u : Uri) (s : Session) (m : Move) : Prop :=
  m.delivered u = [] → (s.move m).connections.get? u = s.connections.get? u

theorem onlyDelivers_track (s : Session) (u : Uri) (f : Loading.Tracker → Loading.Tracker) :
    s.OnlyDelivers u (.track f) :=
  fun _ => rfl

theorem onlyDelivers_messageReceived (s : Session) (u v : Uri) (m : Message) :
    s.OnlyDelivers u (.event (.messageReceived v m)) := by
  intro hnone
  refine (s.get?_apply_of_addressee rfl u).trans (if_neg ?_)
  rintro rfl
  simp [Move.delivered] at hnone

/-- An empty page delivers nothing, and leaves the connection as it is. -/
theorem onlyDelivers_messagesLoaded (s : Session) (u v : Uri) (page : Page) :
    s.OnlyDelivers u (.event (.messagesLoaded v page)) := by
  intro hnone
  refine (s.get?_apply_of_addressee rfl u).trans ?_
  split
  · rename_i e
    subst e
    have hempty : Message.chronological page.messages = [] := by simpa [Move.delivered] using hnone
    rw [Connection.after, hempty]
    rfl
  · rfl

theorem get?_move_of_delivers {s : Session} {u : Uri} {m : Move} (h : s.OnlyDelivers u m) :
    (s.move m).connections.get? u =
      (m.delivered u).foldl Connection.hear (s.connections.get? u) := by
  cases m with
  | track f => exact h rfl
  | event e =>
    cases e with
    | messagesLoaded v page =>
      by_cases hv : v = u
      · subst hv
        rw [Move.delivered, if_pos rfl]
        exact (s.get?_apply_of_addressee rfl v).trans (if_pos rfl)
      · rw [h (if_neg hv), Move.delivered, if_neg hv]
        rfl
    | messageReceived v m =>
      by_cases hv : v = u
      · subst hv
        rw [Move.delivered, if_pos rfl]
        exact (s.get?_apply_of_addressee rfl v).trans (if_pos rfl)
      · rw [h (if_neg hv), Move.delivered, if_neg hv]
        rfl
    | _ => exact h rfl

/-- After deliveries, a connection is what the delivered messages made of it. -/
theorem get?_moves_of_delivers {ms : List Move} {s : Session} {u : Uri}
    (h : s.Throughout (OnlyDelivers u) ms) :
    (s.moves ms).connections.get? u =
      (ms.flatMap (·.delivered u)).foldl Connection.hear (s.connections.get? u) := by
  induction ms generalizing s with
  | nil => rfl
  | cons m ms ih =>
    rw [moves_cons, ih h.2, get?_move_of_delivers h.1, List.flatMap_cons, List.foldl_append]

end Session

namespace Connection

/-- The stored messages of a connection that deliveries made are the first copies, apart from
annotations. -/
theorem perm_toList_of_delivered {ms : List Message} {c : Connection}
    (h : ms.foldl hear none = some c) :
    (c.store.toList.map Message.unannotated).Perm
        ((effective none ms).map Message.unannotated) ∧
      (c.store.toList.map (·.uri)).Nodup := by
  have hfind (v : Uri) : (c.store.get? v).map Message.unannotated =
      ((effective none ms).find? (·.uri = v)).map Message.unannotated := get?_deliver h v
  have hown (v : Uri) (m : Message) (hm : c.store.get? v = some m) : m.uri = v := by
    have := hfind v
    rw [hm, Option.map_some] at this
    obtain ⟨a, ha, e⟩ := Option.map_eq_some_iff.1 this.symm
    rw [← Message.uri_unannotated, ← e]
    simpa using List.find?_some ha
  have hnodup := Store.nodup_toList hown
  have heffective : ((effective none ms).map (·.uri)).Nodup := by
    rw [effective_none]
    exact nodup_firstCopies _
  have huris (l : List Message) : (l.map Message.unannotated).map (·.uri) = l.map (·.uri) :=
    List.map_map
  -- neither list has two messages of one name, so the same members are enough
  refine ⟨(List.perm_ext_iff_of_nodup (.of_map (·.uri) ?_) (.of_map (·.uri) ?_)).2 fun x => ?_,
    hnodup⟩
  · rw [huris]
    exact hnodup
  · rw [huris]
    exact heffective
  · simp only [List.mem_map, Store.mem_toList_iff]
    constructor
    · rintro ⟨m, ⟨v, hm⟩, rfl⟩
      have := hfind v
      rw [hm, Option.map_some] at this
      obtain ⟨a, ha, e⟩ := Option.map_eq_some_iff.1 this.symm
      exact ⟨a, List.mem_of_find?_eq_some ha, e⟩
    · rintro ⟨a, ha, rfl⟩
      have := hfind a.uri
      rw [Message.find?_uri_of_mem heffective ha, Option.map_some] at this
      obtain ⟨m, hm, e⟩ := Option.map_eq_some_iff.1 this
      exact ⟨m, ⟨a.uri, hm⟩, e⟩

end Connection

namespace Session

/-- The messages that moves deliver to an unknown connection and that take effect: the first copies,
from the first message that names the connection. -/
def arrived (u : Uri) (ms : List Move) : List Message :=
  Connection.firstCopies
    ((ms.flatMap (·.delivered u)).dropWhile fun m => (Connection.ofMessage? m).isNone)

/-- A connection that its messages made is known as soon as one names it. Its lifecycle is that of
the messages in the order of arrival, and the replay of its stored messages is that of the same
messages by date. So the two agree if the events come in the order of their dates. -/
theorem lifecycle_of_arrival {s : Session} {u : Uri} {ms : List Move}
    (hnew : s.connections.get? u = none) (h : s.Throughout (OnlyDelivers u) ms) :
    ((s.moves ms).connections.contains u = true ↔
        ∃ m ∈ ms.flatMap (·.delivered u), (Connection.ofMessage? m).isSome = true) ∧
      ∀ c, (s.moves ms).connections.get? u = some c →
        c.lifecycle = .ofHistory (arrived u ms) ∧
        Lifecycle.ofHistory c.store.chronological =
          .ofHistory (Message.chronological (arrived u ms)) ∧
        (((arrived u ms).filter fun m => (LifecycleEvent.ofMessage? m).isSome).Pairwise
            (fun a b => a.before b = true) →
          c.lifecycle = .ofHistory c.store.chronological) := by
  have hmoves := get?_moves_of_delivers h
  rw [hnew] at hmoves
  constructor
  · show ((s.moves ms).connections.get? u).isSome = true ↔ _
    rw [hmoves, Connection.deliver_isSome_iff]
    simp
  · intro c hc
    rw [hmoves] at hc
    have heffective := Connection.effective_none (ms.flatMap (·.delivered u))
    have hlifecycle := (Connection.deliver hc).1
    obtain ⟨hperm, hnodup⟩ := Connection.perm_toList_of_delivered hc
    rw [heffective] at hlifecycle hperm
    have hreplay := Lifecycle.ofHistory_chronological_congr hperm hnodup
    refine ⟨hlifecycle, hreplay, fun hsorted => ?_⟩
    have hsame := Lifecycle.ofHistory_eq_of_pairwise_before
      (Connection.nodup_firstCopies _) hsorted
    exact hlifecycle.trans (hsame.trans hreplay.symm)

/-! ## A connect and its acceptance, on two pages -/

def firstConnect : Message :=
  { Message.bare ⟨"m1"⟩ .connect .incoming with
    senderSocket := some ⟨"peer#s"⟩
    targetSocket := some ⟨"own#s"⟩
    date := 1 }

def acceptance : Message :=
  { Message.bare ⟨"m2"⟩ .opening .outgoing with
    senderSocket := some ⟨"own#s"⟩
    targetSocket := some ⟨"peer#s"⟩
    date := 2 }

def onePage (m : Message) : Move :=
  .event (.messagesLoaded ⟨"c"⟩ ⟨[m], none⟩)

theorem onePage_delivers (m : Message) (s : Session) : s.OnlyDelivers ⟨"c"⟩ (onePage m) :=
  s.onlyDelivers_messagesLoaded _ _ _

/-- An unknown connection after two pages of its messages. -/
def paged (first second : Message) : Session :=
  (Session.start 3).moves [onePage first, onePage second]

theorem lifecycle_of_arrival_paged :
    (∃ c, (paged acceptance firstConnect).connections.get? ⟨"c"⟩ = some c ∧
      c.lifecycle = .ofHistory [acceptance, firstConnect] ∧
      Lifecycle.ofHistory c.store.chronological = .ofHistory [firstConnect, acceptance]) ∧
    ∃ c, (paged firstConnect acceptance).connections.get? ⟨"c"⟩ = some c ∧
      c.lifecycle = .ofHistory c.store.chronological := by
  have hpages (m m' : Message) :
      (Session.start 3).Throughout (OnlyDelivers ⟨"c"⟩) [onePage m, onePage m'] :=
    ⟨onePage_delivers m _, onePage_delivers m' _, trivial⟩
  constructor
  · obtain ⟨-, h⟩ := lifecycle_of_arrival (s := .start 3) rfl (hpages acceptance firstConnect)
    have harrived : arrived ⟨"c"⟩ [onePage acceptance, onePage firstConnect] =
        [acceptance, firstConnect] := by decide +kernel
    have hbydate : Message.chronological [acceptance, firstConnect] =
        [firstConnect, acceptance] :=
      Message.chronological_eq_of_perm (.swap _ _ _) (by decide) (by decide)
    obtain ⟨c, hc⟩ := Option.isSome_iff_exists.1
      (show ((paged acceptance firstConnect).connections.get? ⟨"c"⟩).isSome = true by
        decide +kernel)
    obtain ⟨hlifecycle, hreplay, -⟩ := h c hc
    rw [harrived] at hlifecycle hreplay
    exact ⟨c, hc, hlifecycle, hbydate ▸ hreplay⟩
  · obtain ⟨-, h⟩ := lifecycle_of_arrival (s := .start 3) rfl (hpages firstConnect acceptance)
    obtain ⟨c, hc⟩ := Option.isSome_iff_exists.1
      (show ((paged firstConnect acceptance).connections.get? ⟨"c"⟩).isSome = true by
        decide +kernel)
    exact ⟨c, hc, (h c hc).2.2 (by decide +kernel)⟩

/-- Of a connect on the older page and its acceptance on the newer one, the connection absorbs the
acceptance first, where it is illegal, and keeps waiting for it; the replay is connected. -/
theorem newest_page_first_not_replayed :
    ∃ c, (paged acceptance firstConnect).connections.get? ⟨"c"⟩ = some c ∧
      (∀ m ∈ c.store.toList, m.senderSocket.isSome = true ∧ m.targetSocket.isSome = true) ∧
      c.store.chronological = [firstConnect, acceptance] ∧
      c.lifecycle.state = .requestReceived ∧
      (Lifecycle.ofHistory c.store.chronological).state = .connected := by
  obtain ⟨c, hc, hstored, hstate⟩ : ∃ c,
      (paged acceptance firstConnect).connections.get? ⟨"c"⟩ = some c ∧
      c.store.toList = [firstConnect, acceptance] ∧ c.lifecycle.state = .requestReceived := by
    refine ⟨_, Option.eq_some_of_isSome ?_, ?_, ?_⟩
    · decide +kernel
    · decide +kernel
    · decide +kernel
  have hbydate : c.store.chronological = [firstConnect, acceptance] := by
    rw [Store.chronological, hstored]
    exact Message.chronological_eq_of_perm (.refl _) (by decide) (by decide)
  refine ⟨c, hc, ?_, hbydate, hstate, ?_⟩
  · rw [hstored]
    decide
  · rw [hbydate]
    decide

end Session

end Parley
