/-
Completions that come late. Each completion reports a fetch, and once the fetch is not in flight any
more, after a reset or a deletion or because another report came first, the report should change
nothing. Most completions check the load records before they do anything. A page of messages and the
outcome of a reconciliation do not: they are taken in first, and only the load records stay as they
are. So such a report is dropped exactly if it brings nothing new; after everything was forgotten, a
page that names a connection makes it anew.
-/
import Parley.Proofs.Loading.InFlight
import Parley.Proofs.Session.Moves
import Parley.Proofs.Session.Novelty
import Parley.Proofs.Store.Chronology

namespace Parley

open Loading

/-- The fetch that an event reports, unless it reports that a resource was deleted. -/
def Event.completes? : Event → Option Fetch
  | .atomLoaded data => some (.resource .atom data.uri)
  | .atomLoadFailed u e => if e.saysGone then none else some (.resource .atom u)
  | .containerLoaded atom _ => some (.resource .container atom)
  | .containerLoadFailed atom e => if e.saysGone then none else some (.resource .container atom)
  | .connectionLoaded data => some (.resource .connection data.uri)
  | .connectionLoadFailed u e => if e.saysGone then none else some (.resource .connection u)
  | .messagesLoaded u _ | .messagesLoadFailed u _ _ _ => some (.page u)
  | .agreementReconciled u _ _ | .agreementFailed u => some (.dataSet u .agreementData)
  | _ => none

namespace Session

/-! ## Reports of fetches that are not in flight -/

/-- What a report does without looking at the load records. -/
def takeUnchecked (s : Session) : Event → Session
  | .messagesLoaded u page =>
    (Message.chronological page.messages).foldl (fun s m => s.takeMessage u m) s
  | .agreementReconciled u view fetched =>
    s.updateConnection u fun c =>
      { c with
        store := c.store.insertAll fetched
        agreement := some view
        agreementStale := false }
  | _ => s

/-- The report brings nothing new. -/
def BringsNothing (s : Session) : Event → Prop
  | .messagesLoaded u page => ∀ m ∈ page.messages, s.Ignores u m
  | .agreementReconciled u view fetched => ∀ c, s.connections.get? u = some c →
      c.agreement = some view ∧ c.agreementStale = false ∧ ∀ m ∈ fetched, c.store.Has m
  | _ => True

theorem allowsMessages_sameFlights : Tracker.AllowsMessages Tracker.SameFlights where
  toAllowsFlags := Tracker.allowsFlags_sameFlights
  owner := Tracker.sameFlights_assignOwner
  petriNet := Tracker.sameFlights_invalidatePetriNet

theorem sameFlights_takeMessages (ms : List Message) (s : Session) (u : Uri) :
    s.tracker.SameFlights (ms.foldl (fun s m => s.takeMessage u m) s).tracker :=
  allowsMessages_sameFlights.takeMessages ms s u

theorem sameFlights_takeUnchecked (s : Session) (e : Event) :
    s.tracker.SameFlights (s.takeUnchecked e).tracker := by
  cases e with
  | messagesLoaded u page => exact sameFlights_takeMessages _ s u
  | _ => exact .refl _

/-- A report of a fetch that is not in flight changes nothing but what it does unchecked. -/
theorem apply_of_idle {s : Session} {e : Event} {f : Fetch} (h : e.completes? = some f)
    (hidle : s.tracker.inFlight f = false) :
    s.apply e = ({ s with version := s.version + 1 } : Session).takeUnchecked e := by
  have hfailed {kind : ResourceKind} {u : Uri} {err : NodeFailure}
      (hf : (if err.saysGone then none else some (Fetch.resource kind u)) = some f) :
      s.tracker.fail kind u err.toStatus = (.stale, s.tracker) := by
    split at hf
    · cases hf
    · rename_i hgone
      cases hf
      have hkept : err.saysGone = false := by simpa using hgone
      exact Tracker.fail_of_idle hidle hkept
  cases e <;> try cases h
  case atomLoaded data =>
    simp [apply, effect, takeAtom, takeUnchecked, Tracker.complete_of_idle hidle]
  case containerLoaded atom data =>
    simp [apply, effect, takeContainer, takeUnchecked, Tracker.completeContainer_of_idle hidle]
  case connectionLoaded data =>
    simp [apply, effect, takeConnection, takeUnchecked, Tracker.complete_of_idle hidle]
  case atomLoadFailed u err | containerLoadFailed u err | connectionLoadFailed u err =>
    simp [apply, effect, takeFailure, takeUnchecked, hfailed h]
  case messagesLoaded u page =>
    -- the page is not in flight after its messages were taken in either
    have hafter := (sameFlights_takeMessages (Message.chronological page.messages)
      { s with version := s.version + 1 } u (.page u)).trans hidle
    simp [apply, effect, takeUnchecked, Tracker.completePage_of_idle hafter]
  case messagesLoadFailed u messages nextPage err =>
    simp [apply, effect, takeUnchecked, Tracker.failPage_of_idle hidle]
  case agreementReconciled u view fetched =>
    simp [apply, effect, takeUnchecked, updateConnection, Tracker.completeDataSet_of_idle hidle]
  case agreementFailed u =>
    simp [apply, effect, takeUnchecked, Tracker.failDataSet_of_idle hidle]

theorem updateConnection_eq_self_iff {s : Session} {u : Uri} {f : Connection → Connection} :
    s.updateConnection u f = s ↔ ∀ c, s.connections.get? u = some c → f c = c := by
  constructor
  · intro h c hc
    have hget : (s.updateConnection u f).connections.get? u = some (f c) := by
      simp [updateConnection, hc]
    rw [h, hc] at hget
    exact (Option.some.inj hget).symm
  · intro h
    have hsame : s.connections.modify u f = s.connections := by
      refine UriMap.ext_get? fun v => ?_
      rw [UriMap.get?_modify]
      by_cases e : v = u
      · subst e
        cases hc : s.connections.get? v with
        | none => simp
        | some c => simp [h c hc]
      · rw [if_neg e]
    rw [updateConnection, hsame]

theorem takeUnchecked_eq_self_iff {s : Session} {e : Event} :
    s.takeUnchecked e = s ↔ s.BringsNothing e := by
  cases e with
  | messagesLoaded u page =>
    rw [takeUnchecked, takeMessages_eq_self_iff, BringsNothing]
    simp only [(Message.chronological_perm page.messages).mem_iff]
  | agreementReconciled u view fetched =>
    rw [takeUnchecked, updateConnection_eq_self_iff, BringsNothing]
    refine forall₂_congr fun c _ => ?_
    rw [← Store.insertAll_eq_self_iff]
    constructor
    · intro h
      exact ⟨(congrArg Connection.agreement h).symm, (congrArg Connection.agreementStale h).symm,
        congrArg Connection.store h⟩
    · rintro ⟨hagreement, hstale, hstore⟩
      rw [hstore, ← hagreement, ← hstale]
  | _ => exact iff_of_true rfl trivial

/-- A report of a fetch that is not in flight is dropped exactly if it brings nothing new. -/
theorem apply_of_idle_iff {s : Session} {e : Event} {f : Fetch} (h : e.completes? = some f)
    (hidle : s.tracker.inFlight f = false) :
    s.apply e = { s with version := s.version + 1 } ↔ s.BringsNothing e := by
  rw [apply_of_idle h hidle, takeUnchecked_eq_self_iff]
  -- what is new does not depend on the number of events
  cases e with
  | messagesLoaded u page =>
    refine forall₂_congr fun m _ => ⟨fun h => ?_, fun h => ?_⟩
    · cases h with
      | unnamed hc hm => exact .unnamed hc hm
      | known hc hhas hknows => exact .known hc hhas hknows
    · cases h with
      | unnamed hc hm => exact .unnamed hc hm
      | known hc hhas hknows => exact .known hc hhas hknows
  | _ => exact Iff.rfl

/-! ## Reports after everything was forgotten -/

/-- Nothing is known, and nothing is being fetched. -/
structure IsEmpty (s : Session) : Prop where
  atoms : s.atoms = ∅
  connections : s.connections = ∅
  atomRecords : s.tracker.atoms = ∅
  containerRecords : s.tracker.containers = ∅
  connectionRecords : s.tracker.connections = ∅
  externalRecords : s.tracker.external = ∅

theorem isEmpty_loggedOut (s : Session) : (s.apply .loggedOut).IsEmpty :=
  ⟨rfl, rfl, rfl, rfl, rfl, rfl⟩

theorem IsEmpty.inFlight {s : Session} (h : s.IsEmpty) (f : Fetch) :
    s.tracker.inFlight f = false := by
  rcases f with ⟨kind, u⟩ | u | ⟨u, d⟩
  · cases kind <;>
      simp [Tracker.inFlight, Tracker.isIn, Tracker.phase?, Tracker.load?, h.atomRecords,
        h.containerRecords, h.connectionRecords, h.externalRecords]
  · simp [Tracker.inFlight, h.connectionRecords]
  · simp [Tracker.inFlight, h.connectionRecords]

end Session

/-- The messages of the page that an event reports. -/
def Event.pageMessages : Event → List Message
  | .messagesLoaded _ page => page.messages
  | _ => []

namespace Session

theorem contains_takeUnchecked {s : Session} {u : Uri} (h : s.connections.contains u = true)
    (e : Event) : (s.takeUnchecked e).connections.contains u = true := by
  cases e with
  | messagesLoaded v page =>
    show (((Message.chronological page.messages).foldl
      (fun s m => s.takeMessage v m) s).connections.get? u).isSome = true
    rw [get?_takeMessages]
    by_cases e : u = v
    · subst e
      rw [if_pos rfl, Connection.deliver_isSome_iff]
      exact Or.inl h
    · rw [if_neg e]
      exact h
  | agreementReconciled v view fetched =>
    show ((s.connections.modify v _).get? u).isSome = true
    rw [UriMap.get?_modify]
    by_cases e : u = v
    · rw [if_pos e, Option.isSome_map]
      exact h
    · rw [if_neg e]
      exact h
  | _ => exact h

/-- While nothing is in flight, reports put nothing in flight and remove no connection. -/
theorem idle_apply {s : Session} (hs : ∀ f, s.tracker.inFlight f = false) {e : Event}
    (he : e.completes?.isSome = true) :
    (∀ f, (s.apply e).tracker.inFlight f = false) ∧
      ∀ u, s.connections.contains u = true → (s.apply e).connections.contains u = true := by
  obtain ⟨f, hf⟩ := Option.isSome_iff_exists.1 he
  have happly := apply_of_idle hf (hs f)
  constructor
  · intro f
    rw [happly]
    exact (sameFlights_takeUnchecked _ e f).trans (hs f)
  · intro u hu
    rw [happly]
    exact contains_takeUnchecked (s := { s with version := s.version + 1 }) hu e

theorem idle_applyAll {es : List Event} (hes : ∀ e ∈ es, e.completes?.isSome = true) {s : Session}
    (hs : ∀ f, s.tracker.inFlight f = false) {u : Uri} (hu : s.connections.contains u = true) :
    (es.foldl apply s).connections.contains u = true := by
  induction es generalizing s with
  | nil => exact hu
  | cons e es ih =>
    rw [List.forall_mem_cons] at hes
    obtain ⟨hidle, hknown⟩ := idle_apply hs hes.1
    exact ih hes.2 hidle (hknown u hu)

/-- A page with a message that names a connection leaves the connection known. -/
theorem contains_of_named {s : Session} {e : Event}
    (h : ¬ ∀ m ∈ e.pageMessages, Connection.ofMessage? m = none) :
    ∃ u, (s.apply e).connections.contains u = true := by
  cases e with
  | messagesLoaded u page =>
    obtain ⟨m, hm, hnamed⟩ : ∃ m ∈ page.messages, Connection.ofMessage? m ≠ none := by
      simpa [Event.pageMessages] using h
    refine ⟨u, ?_⟩
    show ((s.apply (.messagesLoaded u page)).connections.get? u).isSome = true
    rw [s.get?_apply_of_addressee rfl, if_pos rfl, Connection.after,
      Connection.deliver_isSome_iff]
    refine Or.inr ⟨m, (Message.chronological_perm page.messages).mem_iff.2 hm, ?_⟩
    exact Option.isSome_iff_ne_none.2 hnamed
  | _ => exact absurd (fun m hm => absurd hm List.not_mem_nil) h

/-- A client that knows nothing stays so under reports exactly if no message of their pages names a
connection. -/
theorem isEmpty_applyAll_iff {es : List Event} (hes : ∀ e ∈ es, e.completes?.isSome = true)
    {s : Session} (hs : s.IsEmpty) :
    (es.foldl apply s).IsEmpty ↔
      ∀ e ∈ es, ∀ m ∈ e.pageMessages, Connection.ofMessage? m = none := by
  induction es generalizing s with
  | nil => exact iff_of_true hs fun e he => absurd he List.not_mem_nil
  | cons e es ih =>
    rw [List.forall_mem_cons] at hes
    rw [List.foldl_cons, List.forall_mem_cons]
    obtain ⟨f, hf⟩ := Option.isSome_iff_exists.1 hes.1
    have hunknown (u : Uri) : s.connections.get? u = none := by simp [hs.connections]
    by_cases hm : ∀ m ∈ e.pageMessages, Connection.ofMessage? m = none
    · -- the report brings nothing new, so nothing is known after it either
      have hnothing : s.BringsNothing e := by
        cases e with
        | messagesLoaded u page => exact fun m h => .unnamed (hunknown u) (hm m h)
        | agreementReconciled u view fetched =>
          intro c hc
          rw [hunknown] at hc
          cases hc
        | _ => trivial
      have hempty : ({ s with version := s.version + 1 } : Session).IsEmpty := { hs with }
      rw [(apply_of_idle_iff hf (hs.inFlight f)).2 hnothing, ih hes.2 hempty]
      exact (and_iff_right hm).symm
    · refine iff_of_false (fun h => ?_) fun h => hm h.1
      -- the first message that names a connection makes it, and it stays
      obtain ⟨u, hu⟩ := contains_of_named hm
      have hstays := idle_applyAll hes.2 (idle_apply hs.inFlight hes.1).1 hu
      rw [h.connections] at hstays
      cases hstays

/-- A report whose fetch is not in flight is dropped exactly if it brings nothing new. After
everything was forgotten, nothing comes back under such reports exactly if no page holds a message
that names a connection. -/
theorem late_completion_dropped_iff (s : Session) {e : Event} {f : Fetch}
    (h : e.completes? = some f) (hidle : s.tracker.inFlight f = false) {es : List Event}
    (hes : ∀ e ∈ es, e.completes?.isSome = true) :
    (s.apply e = { s with version := s.version + 1 } ↔ s.BringsNothing e) ∧
      ((es.foldl apply (s.apply .loggedOut)).IsEmpty ↔
        ∀ e ∈ es, ∀ m ∈ e.pageMessages, Connection.ofMessage? m = none) :=
  ⟨apply_of_idle_iff h hidle, isEmpty_applyAll_iff hes s.isEmpty_loggedOut⟩

/-- A page that comes late, with a connect that names its connection. -/
def latePage : Event :=
  .messagesLoaded ⟨"c"⟩
    ⟨[{ Message.bare ⟨"m"⟩ .connect .incoming with
      senderSocket := some ⟨"peer#s"⟩
      targetSocket := some ⟨"own#s"⟩ }], none⟩

theorem late_completion_dropped_iff_start :
    (Session.start 3).apply (.agreementFailed ⟨"c"⟩) =
        { Session.start 3 with version := 1 } ∧
      (Session.start 3).apply latePage ≠ { Session.start 3 with version := 1 } ∧
      ([Event.agreementFailed ⟨"c"⟩].foldl apply ((Session.start 3).apply .loggedOut)).IsEmpty ∧
      ¬ ([latePage].foldl apply ((Session.start 3).apply .loggedOut)).IsEmpty := by
  have hreports : ∀ e ∈ [Event.agreementFailed ⟨"c"⟩], e.completes?.isSome = true := by decide
  have hpages : ∀ e ∈ [latePage], e.completes?.isSome = true := by decide
  obtain ⟨hfailed, hquiet⟩ :=
    late_completion_dropped_iff (.start 3) (e := .agreementFailed ⟨"c"⟩) rfl rfl hreports
  obtain ⟨hpage, hpaged⟩ := late_completion_dropped_iff (.start 3) (e := latePage) rfl rfl hpages
  refine ⟨hfailed.2 trivial, fun h => ?_, hquiet.2 (by decide), fun h => ?_⟩
  · -- the page names a connection that is not known
    cases hpage.1 h _ List.mem_cons_self with
    | unnamed _ hm => exact absurd hm (by decide)
    | known hc => cases hc
  · exact absurd (hpaged.1 h latePage List.mem_cons_self) (by decide)

/-- After everything was forgotten, a page that nobody is waiting for any more makes a connection
with its message, binds it to its atom and flags the atoms behind its sockets. -/
theorem late_page_restores_connection :
    ∃ c, latePage.completes? = some (.page ⟨"c"⟩) ∧
      ((Session.start 3).apply .loggedOut).tracker.inFlight (.page ⟨"c"⟩) = false ∧
      (((Session.start 3).apply .loggedOut).apply latePage).connections.get? ⟨"c"⟩ = some c ∧
      c.store.size = 1 ∧ c.lifecycle.state = .requestReceived ∧
      (((Session.start 3).apply .loggedOut).apply latePage).tracker.known .atom =
        [⟨"own"⟩, ⟨"peer"⟩] ∧
      (((Session.start 3).apply .loggedOut).apply latePage).tracker.known .connection =
        [⟨"c"⟩] := by
  refine ⟨_, rfl, rfl, Option.eq_some_of_isSome ?_, ?_, ?_, ?_, ?_⟩
  · decide +kernel
  · decide +kernel
  · decide +kernel
  · decide +kernel
  · decide +kernel

end Session

end Parley
