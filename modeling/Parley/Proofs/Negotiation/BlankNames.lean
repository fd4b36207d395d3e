/-
Blank names. What is decoded from the wire or composed here bears no blank name: blank identifiers of
a record count as absent, and a blank reference is none. The one way for a blank name into a store is
the receipt of a sent message, which is taken as it is. Main statement: after any operations, a blank
name is indexed, and finds a message, exactly if a receipt told it for a message that had no remote
name; and an action on such a message is let through, while the message that is composed of it refers
to nothing.
-/
import Parley.Proofs.Message.Decoding
import Parley.Proofs.Session.Run
import Parley.Proofs.Store.Delivery
import Parley.Proofs.Store.Log
import Parley.Proofs.Store.Queries

namespace Parley

/-! ## Where messages come from -/

/-- The references of one identifier, or none if it is blank. -/
theorem References.pairs_insert_none (k : ReferenceKind) (u : Uri) :
    (References.none.insert k u).pairs = if u.isBlank then [] else [(k, u)] := by
  unfold References.insert
  cases u.isBlank with
  | true => rfl
  | false => cases k <;> rfl

/-- The identifier of a new event has slashes in it. -/
theorem Envelope.isBlank_eventUri (e : Envelope) (id : String) :
    (e.eventUri id).isBlank = false := by
  simp [Envelope.eventUri, Uri.isBlank, Text.isBlank, Text.blankChar, Text.blankRanges]

namespace Message

/-- A message as it comes to a store: a wire record describes it, or it is composed here. -/
inductive Genuine : Message → Prop
  | decoded {r : WireRecord} {m : Message} (h : r.toMessage = .ok m) : Genuine m
  | composed (e : Envelope) (intent : Intent) (stamp : Stamp) :
      Genuine (e.compose intent stamp).message

/-- A message that neither bears nor refers to a blank name. -/
structure NoBlanks (m : Message) : Prop where
  uri : m.uri.isBlank = false
  remoteUri : ∀ r, m.remoteUri = some r → r.isBlank = false
  references : ∀ k u, u ∈ m.references.get k → u.isBlank = false

theorem noBlanks_compose (e : Envelope) (intent : Intent) (stamp : Stamp) :
    (e.compose intent stamp).message.NoBlanks where
  uri := e.isBlank_eventUri stamp.id
  remoteUri r h := nomatch h
  references k u h := by
    cases intent with
    | negotiate a r =>
      rcases References.mem_get_insert.1 h with ⟨-, rfl, hblank⟩ | h
      · exact hblank
      · exact absurd h (References.not_mem_none k u)
    | connect | opening | close | chat => exact absurd h (References.not_mem_none k u)

theorem Genuine.noBlanks {m : Message} (h : m.Genuine) : m.NoBlanks := by
  cases h with
  | decoded h =>
    obtain ⟨hblank, hm⟩ := WireRecord.toMessage_eq_ok_iff.1 h
    refine ⟨?_, fun r hr => ((hm.remoteUri r).1 hr).2, fun k u hu => ((hm.references k u).1 hu).2.2⟩
    rw [Uri.isBlank, hm.uri]
    exact hblank
  | composed e intent stamp => exact noBlanks_compose e intent stamp

end Message

namespace Store

/-! ## Remote names that receipts tell -/

/-- The message stored under a local name has the remote name. -/
def Bears (s : Store) (u r : Uri) : Prop :=
  ∃ m, s.get? u = some m ∧ m.remoteUri = some r

/-- The message stored under a local name has no remote name yet. -/
def LacksRemote (s : Store) (u : Uri) : Prop :=
  ∃ m, s.get? u = some m ∧ m.remoteUri = none

section

variable {s : Store} {u r : Uri}

theorem bears_insert_iff {m : Message} (hm : m.remoteUri ≠ some r) :
    (s.insert m).2.Bears u r ↔ s.Bears u r := by
  unfold Bears
  rw [get?_insert]
  by_cases hu : u = m.uri
  · rw [if_pos hu]
    cases s.get? u with
    | none => simp [hm]
    | some stored => cases hr : stored.remoteUri <;> simp [Message.merge, hr, hm]
  · rw [if_neg hu]

theorem bears_insertAll_iff {ms : List Message} (hms : ∀ m ∈ ms, m.remoteUri ≠ some r) :
    (s.insertAll ms).Bears u r ↔ s.Bears u r := by
  induction ms generalizing s with
  | nil => exact Iff.rfl
  | cons m ms ih =>
    rw [List.forall_mem_cons] at hms
    exact (ih hms.2).trans (bears_insert_iff hms.1)

theorem bears_edit_iff {v : Uri} {f : Message → Message}
    (hf : ∀ m, (f m).remoteUri = m.remoteUri) : (s.edit v f).2.Bears u r ↔ s.Bears u r := by
  unfold Bears
  rw [get?_edit]
  split
  · simp [hf]
  · rfl

theorem bears_acknowledge_iff {v : Uri} {remote : Option Uri} :
    (s.acknowledge v remote).2.Bears u r ↔
      s.Bears u r ∨ v = u ∧ remote = some r ∧ s.LacksRemote u := by
  unfold Bears LacksRemote acknowledge
  rw [get?_edit]
  by_cases hu : u = v
  · rw [if_pos hu]
    cases s.get? u with
    | none => simp
    | some m => cases hr : m.remoteUri <;> simp [hr, hu]
  · rw [if_neg hu]
    simp [Ne.symm hu]

/-- Unless it is an admitted message that brings the name, an operation gives it only by
acknowledging a message that has no remote name. -/
theorem bears_perform_iff {op : Operation} (hop : ∀ m ∈ op.messages, m.remoteUri ≠ some r) :
    (s.perform op).Bears u r ↔
      s.Bears u r ∨ op = .acknowledge u (some r) ∧ s.LacksRemote u := by
  have hother (h : (s.perform op).Bears u r ↔ s.Bears u r) (hne : op ≠ .acknowledge u (some r)) :
      (s.perform op).Bears u r ↔
        s.Bears u r ∨ op = .acknowledge u (some r) ∧ s.LacksRemote u :=
    h.trans (or_iff_left fun hack => hne hack.1).symm
  cases op with
  | insert m => exact hother (bears_insert_iff (hop m (List.mem_singleton.2 rfl))) nofun
  | extend ms => exact hother (bears_insertAll_iff hop) nofun
  | acknowledge v remote => simpa [perform, and_assoc] using bears_acknowledge_iff
  | confirmDelivery v => exact hother (bears_edit_iff fun m => rfl) nofun
  | recordFailure v => exact hother (bears_edit_iff fun m => rfl) nofun
  | clearUnread v => exact hother (bears_edit_iff fun m => rfl) nofun

/-- A receipt among the operations told the remote name of a message that was there without one. -/
def ToldByReceipt (s : Store) (ops : List Operation) (u r : Uri) : Prop :=
  ∃ past later, ops = past ++ .acknowledge u (some r) :: later ∧ (s.performAll past).LacksRemote u

theorem toldByReceipt_cons_iff {op : Operation} {ops : List Operation} :
    s.ToldByReceipt (op :: ops) u r ↔
      (op = .acknowledge u (some r) ∧ s.LacksRemote u) ∨
        (s.perform op).ToldByReceipt ops u r := by
  constructor
  · rintro ⟨past, later, hops, hlacks⟩
    cases past with
    | nil =>
      obtain ⟨rfl, rfl⟩ := List.cons.inj hops
      exact Or.inl ⟨rfl, hlacks⟩
    | cons first past =>
      obtain ⟨rfl, rfl⟩ := List.cons.inj hops
      exact Or.inr ⟨past, later, rfl, hlacks⟩
  · rintro (⟨rfl, hlacks⟩ | ⟨past, later, rfl, hlacks⟩)
    · exact ⟨[], ops, rfl, hlacks⟩
    · exact ⟨op :: past, later, rfl, hlacks⟩

theorem bears_performAll_iff {ops : List Operation}
    (hops : ∀ op ∈ ops, ∀ m ∈ op.messages, m.remoteUri ≠ some r) :
    (s.performAll ops).Bears u r ↔ s.Bears u r ∨ s.ToldByReceipt ops u r := by
  induction ops generalizing s with
  | nil =>
    refine (or_iff_left ?_).symm
    rintro ⟨past, later, hops, -⟩
    simp at hops
  | cons op ops ih =>
    rw [List.forall_mem_cons] at hops
    rw [toldByReceipt_cons_iff, ← or_assoc, ← bears_perform_iff hops.1]
    exact ih hops.2

end

/-! ## Own names and references -/

/-- Every stored message is such. -/
def All (P : Message → Prop) (s : Store) : Prop :=
  ∀ u m, s.get? u = some m → P m

section

variable {P : Message → Prop} (hrevise : ∀ m rev, P m → P (m.revise rev)) {s : Store}
include hrevise

theorem All.insert (h : s.All P) {m : Message} (hm : P m) : (s.insert m).2.All P := by
  intro u n hn
  rw [get?_insert] at hn
  split at hn
  · cases hstored : s.get? u with
    | none =>
      rw [hstored] at hn
      cases hn
      exact hm
    | some stored =>
      rw [hstored] at hn
      cases hn
      exact hrevise stored (.copy m) (h u stored hstored)
  · exact h u n hn

theorem All.insertAll (h : s.All P) {ms : List Message} (hms : ∀ m ∈ ms, P m) :
    (s.insertAll ms).All P := by
  induction ms generalizing s with
  | nil => exact h
  | cons m ms ih =>
    rw [List.forall_mem_cons] at hms
    exact ih (h.insert hrevise hms.1) hms.2

theorem All.edit (h : s.All P) (v : Uri) (rev : Message.Revision) :
    (s.edit v (·.revise rev)).2.All P := by
  intro u n hn
  rw [get?_edit] at hn
  split at hn
  · obtain ⟨m, hm, rfl⟩ := Option.map_eq_some_iff.1 hn
    exact hrevise m rev (h u m hm)
  · exact h u n hn

theorem All.perform (h : s.All P) {op : Operation} (hop : ∀ m ∈ op.messages, P m) :
    (s.perform op).All P := by
  cases op with
  | insert m => exact h.insert hrevise (hop m (List.mem_singleton.2 rfl))
  | extend ms => exact h.insertAll hrevise hop
  | acknowledge u remote => exact h.edit hrevise u (.acknowledged remote)
  | confirmDelivery u => exact h.edit hrevise u .delivered
  | recordFailure u => exact h.edit hrevise u .failed
  | clearUnread u => exact h.edit hrevise u .read

/-- What no revision takes away, and holds of every admitted message, holds of every stored one. -/
theorem All.performAll (h : s.All P) {ops : List Operation}
    (hops : ∀ op ∈ ops, ∀ m ∈ op.messages, P m) : (s.performAll ops).All P := by
  induction ops generalizing s with
  | nil => exact h
  | cons op ops ih =>
    rw [List.forall_mem_cons] at hops
    exact ih (h.perform hrevise hops.1) hops.2

end

/-- Own names and references of admitted messages are not blank, and neither are those of the
messages that the store makes of them. -/
theorem not_isBlank_of_stored {ops : List Operation}
    (hops : ∀ op ∈ ops, ∀ m ∈ op.messages, m.NoBlanks) {m : Message}
    (hm : m ∈ (empty.performAll ops).toList) :
    m.uri.isBlank = false ∧ ∀ k u, u ∈ m.references.get k → u.isBlank = false := by
  have hrevise (m : Message) (rev : Message.Revision)
      (h : m.uri.isBlank = false ∧ ∀ k u, u ∈ m.references.get k → u.isBlank = false) :
      (m.revise rev).uri.isBlank = false ∧
        ∀ k u, u ∈ (m.revise rev).references.get k → u.isBlank = false := by
    have hlater := (Message.FilledIn.of_revision m rev).toIsLater
    rwa [hlater.names.uri, hlater.references]
  have hempty : empty.All fun m =>
      m.uri.isBlank = false ∧ ∀ k u, u ∈ m.references.get k → u.isBlank = false :=
    fun u m hm => nomatch hm
  obtain ⟨u, hu⟩ := mem_toList_iff.1 hm
  exact hempty.performAll hrevise
    (fun op hop m hm => ⟨(hops op hop m hm).uri, (hops op hop m hm).references⟩) u m hu

/-! ## Blank names -/

/-- A name that no stored message has as its own finds what the index leads to. -/
theorem Coherent.contains_iff_bears {s : Store} (h : s.Coherent) {r : Uri}
    (hown : ∀ m ∈ s.toList, m.uri ≠ r) : s.contains r = true ↔ ∃ u, s.Bears u r := by
  rw [h.contains_iff]
  constructor
  · rintro ⟨m, hm, hname⟩
    refine ⟨m.uri, m, h.get?_uri hm, ?_⟩
    exact (Message.hasName_iff.1 hname).resolve_left (hown m hm)
  · rintro ⟨u, m, hm, hr⟩
    exact ⟨m, mem_toList_iff.2 ⟨u, hm⟩, Message.hasName_iff.2 (Or.inr hr)⟩

theorem Coherent.indexed_iff_bears {s : Store} (h : s.Coherent) {r : Uri} :
    (∃ u, s.remoteIndex.get? r = some u) ↔ ∃ u, s.Bears u r := by
  constructor
  · rintro ⟨u, hu⟩
    exact ⟨u, h.indexed r u hu⟩
  · rintro ⟨u, m, hm, hr⟩
    exact h.complete u m r hm hr

/-- After any operations that admit messages from the wire and messages composed here, a message
bears a blank remote name exactly if a receipt told it when the message had none; a blank name is
indexed, and finds a message, exactly if there is such a message. No reference that is missing is
blank. And an action that is let through composes a message with one reference, which is not blank,
except on a message found under a blank name: the message composed of that has no reference. -/
theorem blank_names_from_receipts (ops : List Operation)
    (hops : ∀ op ∈ ops, ∀ m ∈ op.messages, m.Genuine) :
    let s := empty.performAll ops
    (∀ r, r.isBlank = true →
      (∀ u, s.Bears u r ↔ empty.ToldByReceipt ops u r) ∧
      ((∃ u, s.remoteIndex.get? r = some u) ↔ ∃ u, empty.ToldByReceipt ops u r) ∧
      (s.contains r = true ↔ ∃ u, empty.ToldByReceipt ops u r)) ∧
    (∀ k r, (k, r) ∈ s.backlinks.missing → r.isBlank = false) ∧
    ∀ (c : Connection) (settings : Settings) (stamp : Stamp) (a : Action) (r : Uri),
      c.store = s → Call.checkIntent c (.negotiate a r) = .ok () →
      (Call.compose settings c (.negotiate a r) stamp).message.references.pairs =
        (if r.isBlank then [] else [(a.reference, r)]) ∧
      (r.isBlank = true → ∃ u, empty.ToldByReceipt ops u r) := by
  intro s
  have hs : s.Coherent := (Reachable.empty.performAll ops).coherent
  have hgenuine : ∀ op ∈ ops, ∀ m ∈ op.messages, m.NoBlanks :=
    fun op hop m hm => (hops op hop m hm).noBlanks
  have hbears (r : Uri) (hr : r.isBlank = true) (u : Uri) :
      s.Bears u r ↔ empty.ToldByReceipt ops u r := by
    refine (bears_performAll_iff fun op hop m hm hremote => ?_).trans (or_iff_right ?_)
    · rw [(hgenuine op hop m hm).remoteUri r hremote] at hr
      cases hr
    · rintro ⟨m, hm, -⟩
      cases hm
  have hcontains (r : Uri) (hr : r.isBlank = true) :
      s.contains r = true ↔ ∃ u, empty.ToldByReceipt ops u r := by
    rw [hs.contains_iff_bears fun m hm hu => ?_, exists_congr (hbears r hr)]
    rw [← hu, (not_isBlank_of_stored hgenuine hm).1] at hr
    cases hr
  refine ⟨fun r hr => ⟨hbears r hr, ?_, hcontains r hr⟩, fun k r hr => ?_, ?_⟩
  · rw [hs.indexed_iff_bears, exists_congr (hbears r hr)]
  · obtain ⟨⟨m, hm, hmr⟩, -⟩ := (Backlinks.mem_missing_iff hs).1 hr
    exact (not_isBlank_of_stored hgenuine hm).2 k r hmr
  · intro c settings stamp a r hc hok
    refine ⟨References.pairs_insert_none a.reference r, fun hr => ?_⟩
    obtain ⟨-, m, hm, -⟩ := Call.checkIntent_negotiate_iff.1 hok
    rw [hc] at hm
    exact (hcontains r hr).1 (Option.isSome_iff_exists.2 ⟨m, hm⟩)

/-- A message sent from here. -/
def sentHello : Message :=
  (Envelope.compose ⟨"n", ⟨"own#s"⟩, ⟨"peer#s"⟩⟩ (.chat "hello") ⟨"1", 1⟩).message

/-- It is stored, and its receipt tells the remote name. -/
def helloWithReceipt (remote : Uri) : List Operation :=
  [.insert sentHello, .acknowledge sentHello.uri (some remote)]

theorem helloWithReceipt_genuine (remote : Uri) :
    ∀ op ∈ helloWithReceipt remote, ∀ m ∈ op.messages, m.Genuine := by
  simp [helloWithReceipt, Operation.messages, sentHello, Message.Genuine.composed]

def helloConnection (remote : Uri) : Connection :=
  { Connection.fresh ⟨"own"⟩ ⟨"own#s"⟩ ⟨"peer#s"⟩ (.resume .connected) with
    store := empty.performAll (helloWithReceipt remote) }

theorem blank_names_from_receipts_hello :
    let s := empty.performAll (helloWithReceipt ⟨"r"⟩)
    s.contains ⟨"r"⟩ = true ∧ s.remoteIndex.get? ⟨" "⟩ = none ∧
      (Call.compose .default (helloConnection ⟨"r"⟩) (.negotiate .retract ⟨"r"⟩)
        ⟨"2", 2⟩).message.references.pairs = [(.retracts, ⟨"r"⟩)] ∧
      (empty.performAll (helloWithReceipt ⟨" "⟩)).contains ⟨" "⟩ = true := by
  intro s
  obtain ⟨hblank, -, haction⟩ :=
    blank_names_from_receipts (helloWithReceipt ⟨"r"⟩) (helloWithReceipt_genuine _)
  obtain ⟨hblank', -, -⟩ :=
    blank_names_from_receipts (helloWithReceipt ⟨" "⟩) (helloWithReceipt_genuine _)
  refine ⟨by decide, ?_, (haction (helloConnection ⟨"r"⟩) .default ⟨"2", 2⟩ .retract ⟨"r"⟩ rfl
    (by decide)).1, ?_⟩
  · obtain ⟨-, hindexed, hcontains⟩ := hblank ⟨" "⟩ (by decide)
    have hunknown : ¬ s.contains ⟨" "⟩ = true := by decide
    rw [hcontains, ← hindexed] at hunknown
    exact Option.eq_none_iff_forall_ne_some.2 fun u hu => hunknown ⟨u, hu⟩
  · exact (hblank' ⟨" "⟩ (by decide)).2.2.2
      ⟨sentHello.uri, [.insert sentHello], [], rfl, sentHello, by decide, rfl⟩

/-- A receipt with an empty name: the name is indexed and finds the message, and the retraction of
what it finds refers to nothing. -/
theorem blank_receipt_indexed :
    let s := empty.performAll (helloWithReceipt ⟨""⟩)
    (∀ op ∈ helloWithReceipt ⟨""⟩, ∀ m ∈ op.messages, m.Genuine) ∧
      s.remoteIndex.get? ⟨""⟩ = some sentHello.uri ∧ s.contains ⟨""⟩ = true ∧
      Call.checkIntent (helloConnection ⟨""⟩) (.negotiate .retract ⟨""⟩) = .ok () ∧
      (Call.compose .default (helloConnection ⟨""⟩) (.negotiate .retract ⟨""⟩)
        ⟨"2", 2⟩).message.references.pairs = [] :=
  ⟨helloWithReceipt_genuine _, by decide, by decide, by decide, by decide⟩

end Store

end Parley
