/-
What the store records of the delivery of a message. That sending it failed and that a node has it
contradict each other, and an acknowledgement clears a failure if it comes with another copy of the
message, or if the own node accepts it; but not if the counterpart's node reports that it got the
message, and a failure is recorded whether or not the message was acknowledged.

Main statements: when a stored message is recorded as both, for all sequences of operations; and
when another copy of a message right after the first one tells the store something new.
-/
import Parley.Proofs.Store.Operations
import Mathlib.Data.List.Induction

namespace Parley

/-! ## Marks that contradict each other -/

namespace Delivery

/-- Failed to send, and acknowledged. -/
def contradictory (d : Delivery) : Bool :=
  d.failedToSend && d.acknowledged

/-- Hearing the same again tells nothing new. -/
theorem merge_merge_self (known heard : Delivery) :
    (known.merge heard).merge heard = known.merge heard := by
  simp [merge]

/-- What is known stays contradictory until an acknowledgement is heard, and does not become so. -/
theorem contradictory_merge (known heard : Delivery) :
    (known.merge heard).contradictory = (known.contradictory && !heard.acknowledged) := by
  cases h : heard.acknowledged with
  | true => simp [contradictory, merge, h]
  | false =>
    obtain ⟨hown, hremote⟩ := Bool.or_eq_false_iff.1 h
    simp [contradictory, acknowledged, merge, hown, hremote]

@[simp] theorem contradictory_delivered (d : Delivery) :
    { d with receivedByRemote := true }.contradictory = d.failedToSend := by
  simp [contradictory, acknowledged]

@[simp] theorem contradictory_failed (d : Delivery) :
    { d with failedToSend := true }.contradictory = d.acknowledged := by
  simp [contradictory, acknowledged]

theorem merge_self_eq_iff (d : Delivery) : d.merge d = d ↔ d.contradictory = false := by
  cases d with
  | mk own remote failed => cases own <;> cases remote <;> cases failed <;> decide

end Delivery

namespace Message

theorem merge_merge_self (stored copy : Message) :
    (stored.merge copy).merge copy = stored.merge copy := by
  simp [merge, Delivery.merge_merge_self, Option.or_assoc]

theorem merge_self_eq_iff (m : Message) : m.merge m = m ↔ m.delivery.contradictory = false := by
  rw [← Delivery.merge_self_eq_iff]
  constructor
  · exact fun h => congrArg Message.delivery h
  · intro h
    simp [merge, h]

/-- A contradictory message is merged with itself by clearing the failure. -/
theorem merge_self_of_contradictory {m : Message} (h : m.delivery.contradictory = true) :
    m.merge m = { m with delivery := { m.delivery with failedToSend := false } } := by
  obtain ⟨-, hacknowledged⟩ := Bool.and_eq_true_iff.1 h
  simp [merge, Delivery.merge, hacknowledged]

end Message

namespace Store

/-! ## Another copy right after the first -/

theorem get?_insert_self (s : Store) (m : Message) :
    (s.insert m).2.get? m.uri = some ((s.get? m.uri).elim m fun stored => stored.merge m) := by
  rw [get?_insert, if_pos rfl]

/-- A copy of a stored message that comes twice tells nothing new the second time. -/
theorem insert_insert_of_known {s : Store} {m stored : Message} (h : s.get? m.uri = some stored) :
    (s.insert m).2.insert m = (.unchanged, (s.insert m).2) := by
  have hmerged : (s.insert m).2.get? m.uri = some (stored.merge m) := by
    rw [get?_insert_self, h]
    rfl
  exact insert_of_merge_eq hmerged (stored.merge_merge_self m)

/-- A new message that is contradictory is stored as it is, and a second copy clears the failure. -/
theorem insert_insert_of_contradictory {s : Store} {m : Message} (hnew : s.get? m.uri = none)
    (hm : m.delivery.contradictory = true) :
    (s.insert m).2.insert m =
      (.updated, (s.add m).replace m.uri m
        { m with delivery := { m.delivery with failedToSend := false } }) := by
  have hstored : (s.add m).get? m.uri = some m := by rw [get?_add, if_pos rfl]
  have hmerge : m.merge m ≠ m := fun h => by
    rw [Message.merge_self_eq_iff, hm] at h
    cases h
  rw [insert_of_unused hnew, insert_of_merge_ne hstored hmerge,
    Message.merge_self_of_contradictory hm]

/-- A message that comes twice tells nothing new the second time, except if it was not stored before
and comes as failed and acknowledged at once: it is stored as it is, and the second copy clears the
failure. A third copy tells nothing new in any case. -/
theorem redelivery_unchanged_iff (s : Store) (m : Message) :
    ((s.insert m).2.insert m = (.unchanged, (s.insert m).2) ↔
        ¬ (s.get? m.uri = none ∧ m.delivery.contradictory = true)) ∧
      (s.get? m.uri = none → m.delivery.contradictory = true →
        ∃ s', (s.insert m).2.insert m = (.updated, s') ∧
          (∀ u, s'.get? u = if u = m.uri then
            some { m with delivery := { m.delivery with failedToSend := false } } else s.get? u) ∧
          s'.remoteIndex = (s.insert m).2.remoteIndex ∧
          s'.version = (s.insert m).2.version + 1) ∧
      ((s.insert m).2.insert m).2.insert m = (.unchanged, ((s.insert m).2.insert m).2) := by
  refine ⟨⟨?_, fun h => ?_⟩, fun hnew hm => ?_, ?_⟩
  · rintro hsame ⟨hnew, hm⟩
    rw [insert_insert_of_contradictory hnew hm] at hsame
    cases hsame
  · cases hnew : s.get? m.uri with
    | some stored => exact insert_insert_of_known hnew
    | none =>
      have hm : m.merge m = m :=
        m.merge_self_eq_iff.2 (Bool.eq_false_iff.2 fun hm => h ⟨hnew, hm⟩)
      rw [insert_of_unused hnew]
      exact insert_of_merge_eq (by rw [get?_add, if_pos rfl]) hm
  · refine ⟨_, insert_insert_of_contradictory hnew hm, fun u => ?_, ?_, ?_⟩
    · rw [get?_replace, get?_add]
      split <;> rfl
    · rw [insert_of_unused hnew, replace]
      cases m.remoteUri <;> simp [indexRemote]
    · rw [insert_of_unused hnew]
      rfl
  · exact insert_insert_of_known (get?_insert_self s m)

/-- A message that the own node has, although sending it failed. -/
def failedAndAcknowledged : Message :=
  { Message.chat ⟨"m"⟩ .outgoing .none with delivery := ⟨true, false, true⟩ }

/-- The second of two equal copies changes the store. -/
theorem redelivery_updates_contradictory :
    ∃ s s', empty.insert failedAndAcknowledged = (.added, s) ∧
      s.insert failedAndAcknowledged = (.updated, s') ∧ s' ≠ s := by
  refine ⟨_, _, rfl, rfl, ?_⟩
  decide +kernel

/-! ## Failures that are recorded of acknowledged messages -/

/-- Whether a stored message is recorded as failed and as acknowledged. -/
def contradicts (s : Store) (u : Uri) : Bool :=
  (s.get? u).any (·.delivery.contradictory)

theorem any_of_contradicts {s : Store} {u : Uri} (h : s.contradicts u = true) :
    (s.get? u).any (·.delivery.failedToSend) = true ∧
      (s.get? u).any (·.delivery.acknowledged) = true := by
  obtain ⟨m, hm, hboth⟩ := (Option.any_eq_true ..).1 h
  obtain ⟨hfailed, hacknowledged⟩ := Bool.and_eq_true_iff.1 hboth
  exact ⟨(Option.any_eq_true ..).2 ⟨m, hm, hfailed⟩,
    (Option.any_eq_true ..).2 ⟨m, hm, hacknowledged⟩⟩

/-- The messages that an operation admits. -/
def Operation.messages : Operation → List Message
  | .insert m => [m]
  | .extend ms => ms
  | _ => []

/-- The operation reports that the counterpart got a message whose failure is recorded, or records
the failure of a message that is acknowledged. -/
def Operation.clashes (s : Store) (u : Uri) : Operation → Bool
  | .confirmDelivery v => v = u && (s.get? u).any (·.delivery.failedToSend)
  | .recordFailure v => v = u && (s.get? u).any (·.delivery.acknowledged)
  | _ => false

/-- The operation acknowledges a message for the own node, or brings an acknowledged copy of it. -/
def Operation.clearsFailure (u : Uri) : Operation → Bool
  | .insert m => m.uri = u && m.delivery.acknowledged
  | .extend ms => ms.any fun m => m.uri = u && m.delivery.acknowledged
  | .acknowledge v _ => v = u
  | _ => false

/-- A message that is not contradictory makes no stored message so, be it stored itself. -/
theorem contradicts_insert (s : Store) {m : Message} (hm : m.delivery.contradictory = false)
    (u : Uri) :
    (s.insert m).2.contradicts u =
      (s.contradicts u && !(decide (m.uri = u) && m.delivery.acknowledged)) := by
  unfold contradicts
  rw [get?_insert]
  by_cases e : u = m.uri
  · subst e
    cases s.get? m.uri with
    | none => simp [hm]
    | some stored => simp [Message.merge, Delivery.contradictory_merge]
  · simp [e, Ne.symm e]

theorem contradicts_insertAll (s : Store) {ms : List Message}
    (hms : ∀ m ∈ ms, m.delivery.contradictory = false) (u : Uri) :
    (s.insertAll ms).contradicts u =
      (s.contradicts u && !ms.any fun m => m.uri = u && m.delivery.acknowledged) := by
  induction ms generalizing s with
  | nil => simp [insertAll]
  | cons m ms ih =>
    obtain ⟨hm, hms⟩ := List.forall_mem_cons.1 hms
    refine (ih (s.insert m).2 hms).trans ?_
    rw [contradicts_insert s hm, List.any_cons, Bool.not_or, Bool.and_assoc]

theorem contradicts_edit (s : Store) (u v : Uri) (f : Message → Message) :
    (s.edit v f).2.contradicts u =
      if u = v then (s.get? u).any fun m => (f m).delivery.contradictory else s.contradicts u := by
  unfold contradicts
  rw [get?_edit]
  split
  · rw [Option.any_map]
  · rfl

/-- The law of one operation. -/
theorem contradicts_perform (s : Store) (op : Operation)
    (hop : ∀ m ∈ op.messages, m.delivery.contradictory = false) (u : Uri) :
    (s.perform op).contradicts u =
      (op.clashes s u || s.contradicts u && !op.clearsFailure u) := by
  cases op with
  | insert m => exact contradicts_insert s (hop m (List.mem_singleton.2 rfl)) u
  | extend ms => exact contradicts_insertAll s hop u
  | acknowledge v remote =>
    refine (contradicts_edit s u v _).trans ?_
    by_cases e : u = v
    · simp [e, Operation.clashes, Operation.clearsFailure, Delivery.contradictory]
    · simp [e, Ne.symm e, Operation.clashes, Operation.clearsFailure]
  | confirmDelivery v =>
    refine (contradicts_edit s u v _).trans ?_
    by_cases e : u = v
    · subst e
      simp only [if_true, Delivery.contradictory_delivered, Operation.clashes, decide_true,
        Bool.true_and]
      -- a contradictory message is one that failed, so that the report clashes with it anyway
      cases hc : s.contradicts u with
      | false => simp
      | true => simp [(any_of_contradicts hc).1]
    · simp [e, Ne.symm e, Operation.clashes, Operation.clearsFailure]
  | recordFailure v =>
    refine (contradicts_edit s u v _).trans ?_
    by_cases e : u = v
    · subst e
      simp only [if_true, Delivery.contradictory_failed, Operation.clashes, decide_true,
        Bool.true_and]
      cases hc : s.contradicts u with
      | false => simp
      | true => simp [(any_of_contradicts hc).2]
    · simp [e, Ne.symm e, Operation.clashes, Operation.clearsFailure]
  | clearUnread v =>
    refine (contradicts_edit s u v _).trans ?_
    simp [contradicts, Operation.clashes, Operation.clearsFailure]

theorem performAll_snoc (s : Store) (ops : List Operation) (op : Operation) :
    s.performAll (ops ++ [op]) = (s.performAll ops).perform op := by
  rw [performAll, List.foldl_append]
  rfl

/-- The law of operations, one after another: a stored message contradicts itself after them if it
did before and nothing cleared the failure, or if some operation clashed with what was recorded and
nothing cleared the failure since. -/
theorem contradicts_performAll_iff (s : Store) {ops : List Operation}
    (hops : ∀ op ∈ ops, ∀ m ∈ op.messages, m.delivery.contradictory = false) (u : Uri) :
    (s.performAll ops).contradicts u = true ↔
      (s.contradicts u = true ∧ ∀ o ∈ ops, o.clearsFailure u = false) ∨
        ∃ past op later, ops = past ++ op :: later ∧ op.clashes (s.performAll past) u = true ∧
          ∀ o ∈ later, o.clearsFailure u = false := by
  induction ops using List.reverseRecOn with
  | nil => simp [performAll]
  | append_singleton ops op ih =>
    obtain ⟨hops, hop⟩ := List.forall_mem_append.1 hops
    rw [performAll_snoc, contradicts_perform _ op (hop op (List.mem_singleton.2 rfl)),
      Bool.or_eq_true, Bool.and_eq_true, ih hops, Bool.not_eq_true', List.forall_mem_append,
      List.forall_mem_singleton]
    constructor
    · rintro (hclash | ⟨⟨hs, hkept⟩ | ⟨past, o, later, rfl, hclash, hkept⟩, hlast⟩)
      · exact Or.inr ⟨ops, op, [], rfl, hclash, List.forall_mem_nil _⟩
      · exact Or.inl ⟨hs, hkept, hlast⟩
      · refine Or.inr ⟨past, o, later ++ [op], by simp, hclash, ?_⟩
        exact List.forall_mem_append.2 ⟨hkept, List.forall_mem_singleton.2 hlast⟩
    · rintro (⟨hs, hkept, hlast⟩ | ⟨past, o, later, hsplit, hclash, hkept⟩)
      · exact Or.inr ⟨Or.inl ⟨hs, hkept⟩, hlast⟩
      · -- the clash is the last operation, or it lies before
        cases later using List.reverseRecOn with
        | nil =>
          obtain ⟨rfl, hlast⟩ := List.append_inj' hsplit rfl
          cases hlast
          exact Or.inl hclash
        | append_singleton later last =>
          rw [← List.cons_append, ← List.append_assoc] at hsplit
          obtain ⟨rfl, hlast⟩ := List.append_inj' hsplit rfl
          cases hlast
          obtain ⟨hkept, hlast⟩ := List.forall_mem_append.1 hkept
          exact Or.inr ⟨Or.inr ⟨past, o, later, rfl, hclash, hkept⟩,
            hlast _ (List.mem_singleton.2 rfl)⟩

/-- If no message comes as failed and acknowledged at once, a stored message is recorded as both
exactly if the counterpart was reported to have it while its failure was recorded, or its failure
was recorded while it was acknowledged, and since then no acknowledgement of the own node and no
acknowledged copy came. -/
theorem failed_though_acknowledged_iff (ops : List Operation)
    (hops : ∀ op ∈ ops, ∀ m ∈ op.messages, m.delivery.contradictory = false) (u : Uri) :
    (∃ m, (empty.performAll ops).get? u = some m ∧ m.delivery.failedToSend = true ∧
        (m.delivery.receivedByOwn = true ∨ m.delivery.receivedByRemote = true)) ↔
      ∃ past op later, ops = past ++ op :: later ∧ op.clashes (empty.performAll past) u = true ∧
        ∀ o ∈ later, o.clearsFailure u = false := by
  have hstored : (∃ m, (empty.performAll ops).get? u = some m ∧ m.delivery.failedToSend = true ∧
      (m.delivery.receivedByOwn = true ∨ m.delivery.receivedByRemote = true)) ↔
      (empty.performAll ops).contradicts u = true := by
    simp [contradicts, Option.any_eq_true, Delivery.contradictory, Delivery.acknowledged]
  have hstart : empty.contradicts u = false := rfl
  rw [hstored, contradicts_performAll_iff empty hops, hstart]
  simp

/-- Sending a message fails, and then the counterpart's node has it. -/
def receivedAfterFailure : List Operation :=
  [.insert (.chat ⟨"m"⟩ .outgoing .none), .recordFailure ⟨"m"⟩, .confirmDelivery ⟨"m"⟩]

theorem failed_though_acknowledged_iff_receivedAfterFailure :
    (∀ op ∈ receivedAfterFailure, ∀ m ∈ op.messages, m.delivery.contradictory = false) ∧
      ∃ m, (empty.performAll receivedAfterFailure).get? ⟨"m"⟩ = some m ∧
        m.delivery.failedToSend = true ∧
        (m.delivery.receivedByOwn = true ∨ m.delivery.receivedByRemote = true) := by
  have hops : ∀ op ∈ receivedAfterFailure, ∀ m ∈ op.messages,
      m.delivery.contradictory = false := by
    simp [receivedAfterFailure, Operation.messages, Message.chat, Message.bare, Delivery.unknown,
      Delivery.contradictory]
  refine ⟨hops, (failed_though_acknowledged_iff receivedAfterFailure hops ⟨"m"⟩).2 ?_⟩
  refine ⟨[.insert (.chat ⟨"m"⟩ .outgoing .none), .recordFailure ⟨"m"⟩],
    .confirmDelivery ⟨"m"⟩, [], rfl, ?_, List.forall_mem_nil _⟩
  decide +kernel

/-- The own node accepts a message, and then sending it fails. -/
def failureAfterAcceptance : List Operation :=
  [.insert (.chat ⟨"m"⟩ .outgoing .none), .acknowledge ⟨"m"⟩ none, .recordFailure ⟨"m"⟩]

/-- Neither order of a failure and an acknowledgement keeps them apart. -/
theorem failure_clashes_in_either_order :
    (receivedAfterFailure ++ failureAfterAcceptance).flatMap Operation.messages =
        [.chat ⟨"m"⟩ .outgoing .none, .chat ⟨"m"⟩ .outgoing .none] ∧
      (Message.chat ⟨"m"⟩ .outgoing .none).delivery = ⟨false, false, false⟩ ∧
      ((empty.performAll receivedAfterFailure).get? ⟨"m"⟩).map (·.delivery) =
        some ⟨false, true, true⟩ ∧
      ((empty.performAll failureAfterAcceptance).get? ⟨"m"⟩).map (·.delivery) =
        some ⟨true, false, true⟩ := by
  refine ⟨rfl, rfl, ?_, ?_⟩
  · decide +kernel
  · decide +kernel

end Store

end Parley
