/-
Runs of calls among others. The state is never held over a question and not from one atomic step to
the next either, so before each atomic step of a call the other calls may have made any moves, and
the node may answer the same question differently each time. Every call of the client itself only
makes moves, so what others do while a call runs is a list of moves, and so is what the call does
with them.
-/
import Parley.Proofs.Session.Moves
import Parley.Proofs.Session.Run

namespace Parley

open Loading

/-- What a run of a call meets: the stamp for a new event, the node at each question, and the moves
of the others before each atomic step. -/
structure Surroundings where
  stamp : Stamp
  node : Nat → Node
  others : Nat → List Move

namespace Surroundings

/-- No other call, and a node that answers always in the same way. -/
def alone (stamp : Stamp) (node : Node) : Surroundings := ⟨stamp, fun _ => node, fun _ => []⟩

/-- What is left after an atomic step. -/
def acted (e : Surroundings) : Surroundings := { e with others := fun n => e.others (n + 1) }

/-- What is left after a question. -/
def answered (e : Surroundings) : Surroundings := { e with node := fun n => e.node (n + 1) }

end Surroundings

namespace Program

variable {α β : Type}

/-- The answer of a call that runs to its end among others, what is left of the surroundings, and
the state after it. -/
def runAmong : Program α → Surroundings → Session → α × Surroundings × Session
  | .done a, e, s => (a, e, s)
  | .stamp next, e, s => (next e.stamp).runAmong e s
  | .atomic update next, e, s =>
    (next (s.moves (e.others 0))).runAmong e.acted (update (s.moves (e.others 0)))
  | .ask r next, e, s => (next (e.node 0 r)).runAmong e.answered s

/-- A run that nothing interferes with is a run without interleaving. -/
theorem runAmong_alone (stamp : Stamp) (node : Node) (p : Program α) (s : Session) :
    p.runAmong (.alone stamp node) s =
      ((p.run stamp node s).1, .alone stamp node, (p.run stamp node s).2) := by
  induction p generalizing s with
  | done a => rfl
  | stamp next ih => exact ih stamp s
  | atomic update next ih => exact ih s (update s)
  | ask r next ih => exact ih (node r) s

theorem runAmong_bind (p : Program α) (f : α → Program β) (e : Surroundings) (s : Session) :
    (p >>= f).runAmong e s =
      (f (p.runAmong e s).1).runAmong (p.runAmong e s).2.1 (p.runAmong e s).2.2 := by
  show (p.bind f).runAmong e s = _
  induction p generalizing e s with
  | done a => rfl
  | stamp next ih => exact ih e.stamp e s
  | atomic update next ih => exact ih (s.moves (e.others 0)) e.acted (update (s.moves (e.others 0)))
  | ask r next ih => exact ih (e.node 0 r) e.answered s

@[simp] theorem runAmong_pure (a : α) (e : Surroundings) (s : Session) :
    (pure a : Program α).runAmong e s = (a, e, s) := rfl

@[simp] theorem runAmong_apply (event : Event) (e : Surroundings) (s : Session) :
    (apply event).runAmong e s = ((), e.acted, (s.moves (e.others 0)).apply event) := rfl

@[simp] theorem runAmong_transact (f : Session → α × Session) (e : Surroundings) (s : Session) :
    (transact f).runAmong e s =
      ((f (s.moves (e.others 0))).1, e.acted, (f (s.moves (e.others 0))).2) := rfl

@[simp] theorem runAmong_request (r : Request) (e : Surroundings) (s : Session) :
    (request r).runAmong e s = (e.node 0 r, e.answered, s) := rfl

/-- Asking the node takes no atomic step. -/
theorem runAmong_ofInquiry (settings : Settings) (q : Inquiry α) (e : Surroundings) (s : Session) :
    ∃ a e', (ofInquiry settings q).runAmong e s = (a, e', s) ∧ e'.others = e.others := by
  induction q generalizing e with
  | done a => exact ⟨a, e, rfl, rfl⟩
  | ask question next ih =>
    obtain ⟨r, read, hask⟩ := ofInquiry_ask settings question next
    rw [hask, runAmong]
    exact ih (read (e.node 0 r)) e.answered

/-- A send among others: what it sends is checked and made in one step, stored as the own copy in a
second, and after the answer marked with the outcome in a third. -/
theorem runAmong_send (settings : Settings) (u : Uri) (intent : Intent) (e : Surroundings)
    (s : Session) :
    (Call.send settings u intent).runAmong e s =
      match Call.prepare settings (s.moves (e.others 0)) u intent e.stamp with
      | .error f => (.error f, e.acted, s.moves (e.others 0))
      | .ok d =>
        let sent := ((s.moves (e.others 0)).moves (e.others 1)).apply (.messageSent u d.message)
        let after := e.acted.acted.answered.acted
        match e.node 0 (.send u d) with
        | .ok answer =>
          (.ok d.message.uri, after,
            (sent.moves (e.others 2)).apply (.sendSucceeded u d.message.uri answer.remoteUri))
        | .error f =>
          (.error (.transport f), after,
            (sent.moves (e.others 2)).apply (.sendFailed u d.message.uri)) := by
  show Program.runAmong (match Call.prepare settings (s.moves (e.others 0)) u intent e.stamp with
    | .error e => _
    | .ok d => _) e.acted (s.moves (e.others 0)) = _
  cases Call.prepare settings (s.moves (e.others 0)) u intent e.stamp with
  | error f => rfl
  | ok d =>
    simp only [runAmong_bind, runAmong_apply, runAmong_request]
    show Program.runAmong (match e.node 0 (.send u d) with
      | .ok answer => _
      | .error f => _) _ _ = _
    cases e.node 0 (.send u d) with
    | ok answer => rfl
    | error f => rfl

/-! ## Calls only make moves -/

end Program

/-- The moves that the calls of the client make: they fold in events, and they flag what is to be
fetched and claim what they fetch. -/
inductive Move.ByClient : Move → Prop
  | event (e : Event) : ByClient (.event e)
  | flag (kind : ResourceKind) (u : Uri) : ByClient (.track fun t => (t.flag kind u).2)
  | claim (kind : ResourceKind) (u : Uri) : ByClient (.track fun t => (t.claim kind u).2)
  | claimPage (u : Uri) : ByClient (.track fun t => (t.claimPage u).2)
  | claimDataSet (u : Uri) (d : DataSet) : ByClient (.track fun t => (t.claimDataSet u d).2)

/-- The moves of the calls that do not reconcile agreements. -/
inductive Move.Plain : Move → Prop
  | event (e : Event) (h : e.reportsAgreements = false) : Plain (.event e)
  | flag (kind : ResourceKind) (u : Uri) : Plain (.track fun t => (t.flag kind u).2)
  | claim (kind : ResourceKind) (u : Uri) : Plain (.track fun t => (t.claim kind u).2)
  | claimPage (u : Uri) : Plain (.track fun t => (t.claimPage u).2)

theorem Move.Plain.byClient {m : Move} (h : m.Plain) : m.ByClient := by
  cases h with
  | event e _ => exact .event e
  | flag kind u => exact .flag kind u
  | claim kind u => exact .claim kind u
  | claimPage u => exact .claimPage u

namespace Program

variable {α β : Type} {P : Move → Prop}

/-- Whatever a call does to the state, it does by moves of a kind. -/
def MakesOnly (P : Move → Prop) : Program α → Prop
  | .done _ => True
  | .stamp next => ∀ stamp, (next stamp).MakesOnly P
  | .atomic update next =>
    (∀ s, ∃ ms, (∀ m ∈ ms, P m) ∧ update s = s.moves ms) ∧ ∀ s, (next s).MakesOnly P
  | .ask _ next => ∀ answer, (next answer).MakesOnly P

theorem MakesOnly.bind {p : Program α} (h : p.MakesOnly P) {f : α → Program β}
    (hf : ∀ a, (f a).MakesOnly P) : (p.bind f).MakesOnly P := by
  induction p with
  | done a => exact hf a
  | stamp next ih => exact fun stamp => ih stamp (h stamp)
  | atomic update next ih => exact ⟨h.1, fun s => ih s (h.2 s)⟩
  | ask r next ih => exact fun answer => ih answer (h answer)

/-- One atomic step that does nothing, or one move. -/
theorem makesOnly_transact {f : Session → α × Session}
    (h : ∀ s, (f s).2 = s ∨ ∃ m, P m ∧ (f s).2 = s.move m) : (transact f).MakesOnly P := by
  refine ⟨fun s => ?_, fun _ => trivial⟩
  rcases h s with hs | ⟨m, hm, hs⟩
  · exact ⟨[], List.forall_mem_nil _, hs⟩
  · exact ⟨[m], List.forall_mem_singleton.2 hm, hs⟩

theorem makesOnly_apply {e : Event} (h : P (.event e)) : (apply e).MakesOnly P :=
  ⟨fun _ => ⟨[.event e], List.forall_mem_singleton.2 h, rfl⟩, fun _ => trivial⟩

theorem makesOnly_request (r : Request) : (request r).MakesOnly P :=
  fun _ => trivial

theorem makesOnly_ofInquiry (settings : Settings) (q : Inquiry α) :
    (ofInquiry settings q).MakesOnly P := by
  induction q with
  | done a => trivial
  | ask question next ih =>
    obtain ⟨r, read, hask⟩ := ofInquiry_ask settings question next
    rw [hask]
    exact fun answer => ih (read answer)

/-- What a call does to the state, among others that make moves of the same kind, amounts to such
moves. -/
theorem MakesOnly.runAmong {p : Program α} (h : p.MakesOnly P) (e : Surroundings)
    (he : ∀ n, ∀ m ∈ e.others n, P m) (s : Session) :
    ∃ ms, (∀ m ∈ ms, P m) ∧ (p.runAmong e s).2.2 = s.moves ms := by
  induction p generalizing e s with
  | done a => exact ⟨[], List.forall_mem_nil _, rfl⟩
  | stamp next ih => exact ih e.stamp (h e.stamp) e he s
  | atomic update next ih =>
    obtain ⟨ms, hP, hms⟩ := h.1 (s.moves (e.others 0))
    obtain ⟨ms', hP', h'⟩ := ih _ (h.2 (s.moves (e.others 0))) e.acted (fun n => he (n + 1))
      (update (s.moves (e.others 0)))
    refine ⟨e.others 0 ++ ms ++ ms', ?_, ?_⟩
    · simp only [List.mem_append]
      rintro m ((hm | hm) | hm)
      · exact he 0 m hm
      · exact hP m hm
      · exact hP' m hm
    · rw [Session.moves_append, Session.moves_append, ← hms]
      exact h'
  | ask r next ih => exact ih _ (h _) e.answered he s

end Program

namespace Call

open Program

variable {P : Move → Prop}

theorem makesOnly_track {α : Type} {f : Tracker → α × Tracker}
    (h : P (.track fun t => (f t).2)) : (track f).MakesOnly P :=
  makesOnly_transact fun _ => Or.inr ⟨_, h, rfl⟩

theorem claimCursor_snd (u : Uri) (t : Tracker) : (claimCursor u t).2 = (t.claimPage u).2 := by
  unfold claimCursor
  split <;> rename_i h <;> rw [h]

section

variable (hP : ∀ m : Move, m.Plain → P m)
include hP

theorem makesOnly_flagAtom (u : Uri) : (flagAtom u).MakesOnly P :=
  makesOnly_track (hP _ (.flag .atom u))

theorem makesOnly_load (kind : ResourceKind) (u : Uri) (r : Request)
    {loaded : r.Answer → Event} {failed : NodeFailure → Event}
    (hloaded : ∀ data, (loaded data).reportsAgreements = false)
    (hfailed : ∀ f, (failed f).reportsAgreements = false) :
    (load kind u r loaded failed).MakesOnly P := by
  unfold load
  refine (makesOnly_track (hP _ (.claim kind u))).bind fun claim => ?_
  cases claim with
  | alreadyLoading => trivial
  | started =>
    refine (makesOnly_request r).bind fun answer => ?_
    cases answer with
    | ok data => exact (makesOnly_apply (hP _ (.event _ (hloaded data)))).bind fun _ => trivial
    | error f => exact (makesOnly_apply (hP _ (.event _ (hfailed f)))).bind fun _ => trivial

theorem makesOnly_loadMessages (u : Uri) : (loadMessages u).MakesOnly P := by
  have hclaim : P (.track fun t => (claimCursor u t).2) := by
    simp only [claimCursor_snd]
    exact hP _ (.claimPage u)
  refine (makesOnly_track hclaim).bind fun claim => ?_
  cases claim with
  | none => trivial
  | some cursor =>
    refine (makesOnly_request _).bind fun answer => ?_
    cases answer with
    | ok page => exact (makesOnly_apply (hP _ (.event _ rfl))).bind fun _ => trivial
    | error f => exact (makesOnly_apply (hP _ (.event _ rfl))).bind fun _ => trivial

theorem makesOnly_loadFlagged : loadFlagged.MakesOnly P := by
  have hall (ps : List (Program LoadResult)) (h : ∀ p ∈ ps, p.MakesOnly P) (n : Nat) :
      (countLoaded ps n).MakesOnly P := by
    induction ps generalizing n with
    | nil => trivial
    | cons p ps ih =>
      exact (h p List.mem_cons_self).bind fun outcome =>
        ih (fun q hq => h q (List.mem_cons_of_mem p hq)) _
  -- the flagged atoms, containers and connections in turn
  refine ⟨fun _ => ⟨[], List.forall_mem_nil _, rfl⟩, fun s => hall _ (fun p hp => ?_) 0⟩
  simp only [List.mem_append, List.mem_map] at hp
  obtain (⟨u, -, rfl⟩ | ⟨u, -, rfl⟩) | ⟨u, -, rfl⟩ := hp
  · exact makesOnly_load hP .atom u _ (fun _ => rfl) fun _ => rfl
  · exact makesOnly_load hP .container u _ (fun _ => rfl) fun _ => rfl
  · exact makesOnly_load hP .connection u _ (fun _ => rfl) fun _ => rfl

theorem makesOnly_send (settings : Settings) (u : Uri) (intent : Intent) :
    (send settings u intent).MakesOnly P := by
  refine fun stamp => ⟨fun _ => ⟨[], List.forall_mem_nil _, rfl⟩, fun s => ?_⟩
  show MakesOnly P (match prepare settings s u intent stamp with
    | .error e => _
    | .ok d => _)
  cases prepare settings s u intent stamp with
  | error f => trivial
  | ok d =>
    refine (makesOnly_apply (hP _ (.event _ rfl))).bind fun _ =>
      (makesOnly_request _).bind fun answer => ?_
    cases answer with
    | ok answer => exact (makesOnly_apply (hP _ (.event _ rfl))).bind fun _ => trivial
    | error f => exact (makesOnly_apply (hP _ (.event _ rfl))).bind fun _ => trivial

end

/-- Claiming agreement data claims the data set if it may be fetched again, or does nothing. -/
theorem claimAgreement_snd (u : Uri) (s : Session) :
    (claimAgreement u s).2 = s ∨ s.tracker.mayRetry u .agreementData = true ∧
      (claimAgreement u s).2 =
        { s with tracker := (s.tracker.claimDataSet u .agreementData).2 } := by
  unfold claimAgreement
  split
  · exact Or.inl rfl
  · split
    · rename_i hretry
      refine Or.inr ⟨hretry, ?_⟩
      split <;> rename_i h <;> rw [h]
    · exact Or.inl rfl

theorem makesOnly_refreshAgreements (settings : Settings) (u : Uri) :
    (refreshAgreements settings u).MakesOnly Move.ByClient := by
  have hclaim : (transact (claimAgreement u)).MakesOnly Move.ByClient :=
    makesOnly_transact fun s =>
      (claimAgreement_snd u s).imp_right fun h => ⟨_, .claimDataSet u .agreementData, h.2⟩
  refine hclaim.bind fun claimed => ?_
  rcases claimed with f | _ | inputs
  · trivial
  · trivial
  · refine (makesOnly_ofInquiry settings _).bind fun outcome => ?_
    rcases outcome with f | r
    · exact (makesOnly_apply (.event _)).bind fun _ => trivial
    · exact (makesOnly_apply (.event _)).bind fun _ => trivial

theorem makesOnly_refreshStale (settings : Settings) :
    (refreshStale settings).MakesOnly Move.ByClient := by
  have hall (us : List Uri) : (refreshEach settings us).MakesOnly Move.ByClient := by
    induction us with
    | nil => trivial
    | cons u us ih =>
      exact (makesOnly_refreshAgreements settings u).bind fun _ => ih.bind fun _ => trivial
  exact ⟨fun _ => ⟨[], List.forall_mem_nil _, rfl⟩, fun _ => hall _⟩

end Call

end Parley
