/-
The store as an append-only log. A message that was admitted is never removed. Its name, its kind
with the references, its direction, its flags for content and for the system, its sockets and its
date are those of the first copy for good; a remote name is filled in once; what was acknowledged
stays acknowledged, and what was read stays read. An operation reaches only the messages that it
names. Main statement: this holds between any two points of any run of operations.

Everything that happens to a stored message is a revision, so the law of one revision is all that
is needed of the operations.
-/
import Parley.Proofs.Store.Operations

namespace Parley

namespace Message

/-! ## Later versions of a message -/

/-- A message without what may be filled in after it was admitted. -/
def unannotated (m : Message) : Message :=
  { m with remoteUri := none, unread := false, delivery := .unknown }

@[simp] theorem uri_unannotated (m : Message) : m.unannotated.uri = m.uri := rfl

@[simp] theorem unannotated_merge (stored copy : Message) :
    (stored.merge copy).unannotated = stored.unannotated := rfl

/-- A message after it heard something: it keeps its names, and all but what is annotated. -/
structure IsLater (old new : Message) : Prop where
  names : old.KeepsNames new
  same : new.unannotated = old.unannotated

/-- A message after it heard something, with what became of its annotations: no acknowledgement is
taken back, and a read message is not unread again. -/
structure FilledIn (old new : Message) : Prop extends old.IsLater new where
  receivedByOwn : old.delivery.receivedByOwn = true → new.delivery.receivedByOwn = true
  receivedByRemote : old.delivery.receivedByRemote = true → new.delivery.receivedByRemote = true
  unread : new.unread = true → old.unread = true

namespace IsLater

theorem refl (m : Message) : m.IsLater m :=
  ⟨.refl m, rfl⟩

theorem trans {a b c : Message} (hab : a.IsLater b) (hbc : b.IsLater c) : a.IsLater c :=
  ⟨hab.names.trans hbc.names, hbc.same.trans hab.same⟩

variable {old new : Message}

theorem direction (h : old.IsLater new) : new.direction = old.direction :=
  (congrArg Message.direction h.same :)

theorem hasContent (h : old.IsLater new) : new.hasContent = old.hasContent :=
  (congrArg Message.hasContent h.same :)

theorem references (h : old.IsLater new) : new.references = old.references :=
  (congrArg Message.references h.same :)

end IsLater

namespace FilledIn

theorem refl (m : Message) : m.FilledIn m :=
  ⟨.refl m, id, id, id⟩

theorem trans {a b c : Message} (hab : a.FilledIn b) (hbc : b.FilledIn c) : a.FilledIn c where
  toIsLater := hab.toIsLater.trans hbc.toIsLater
  receivedByOwn h := hbc.receivedByOwn (hab.receivedByOwn h)
  receivedByRemote h := hbc.receivedByRemote (hab.receivedByRemote h)
  unread h := hab.unread (hbc.unread h)

/-- A message that is told something has only that filled in. -/
theorem of_revision (m : Message) (r : Revision) : m.FilledIn (m.revise r) where
  names := m.revise_keepsNames r
  same := by cases r <;> rfl
  receivedByOwn h := by cases r <;> simp [revise, merge, Delivery.merge, h]
  receivedByRemote h := by cases r <;> simp [revise, merge, Delivery.merge, h]
  unread h := by
    cases r with
    | copy c => exact (Bool.and_eq_true_iff.1 h).1
    | acknowledged remote | delivered | failed => exact h
    | read => cases h

theorem of_revisions (m : Message) (rs : List Revision) : m.FilledIn (rs.foldl revise m) := by
  induction rs generalizing m with
  | nil => exact .refl m
  | cons r rs ih => exact (of_revision m r).trans (ih _)

/-- A remote name that changes was missing before. -/
theorem remoteUri_of_ne {old new : Message} (h : old.FilledIn new)
    (hne : new.remoteUri ≠ old.remoteUri) : old.remoteUri = none ∧ new.remoteUri.isSome = true := by
  have hnone : old.remoteUri = none := h.names.remote.resolve_right hne
  refine ⟨hnone, Option.isSome_iff_ne_none.2 ?_⟩
  rwa [hnone] at hne

/-- A remote name that is there stays. -/
theorem remoteUri_of_isSome {old new : Message} (h : old.FilledIn new)
    (hsome : old.remoteUri.isSome = true) : new.remoteUri = old.remoteUri :=
  h.names.remote.resolve_left (Option.isSome_iff_ne_none.1 hsome)

end FilledIn

end Message

/-! ## Runs of operations -/

namespace Store

/-- Operations only fill in a stored message. -/
theorem exists_filledIn {s : Store} {u : Uri} {m : Message} (h : s.get? u = some m)
    (ops : List Operation) : ∃ m', (s.performAll ops).get? u = some m' ∧ m.FilledIn m' := by
  obtain ⟨rs, hrs⟩ := exists_revisions h ops
  exact ⟨_, hrs, .of_revisions m rs⟩

theorem exists_later {s : Store} (hs : s.Reachable) (ops : List Operation) {m : Message}
    (hm : m ∈ s.toList) : ∃ m' ∈ (s.performAll ops).toList, m.IsLater m' := by
  obtain ⟨m', hm', hfilled⟩ := exists_filledIn (hs.coherent.get?_uri hm) ops
  exact ⟨m', mem_toList_iff.2 ⟨_, hm'⟩, hfilled.toIsLater⟩

/-- The local names of the messages that an operation is about. -/
def Operation.names : Operation → List Uri
  | .insert m => [m.uri]
  | .extend ms => ms.map (·.uri)
  | .acknowledge u _ | .confirmDelivery u | .recordFailure u | .clearUnread u => [u]

theorem get?_insertAll_of_not_mem {ms : List Message} {u : Uri} (h : u ∉ ms.map (·.uri))
    (s : Store) : (s.insertAll ms).get? u = s.get? u := by
  induction ms generalizing s with
  | nil => rfl
  | cons m ms ih =>
    rw [List.map_cons, List.mem_cons, not_or] at h
    exact (ih h.2 (s.insert m).2).trans ((s.get?_insert m u).trans (if_neg h.1))

/-- An operation leaves every message that it is not about as it is. -/
theorem get?_perform_of_not_mem (s : Store) {op : Operation} {u : Uri} (h : u ∉ op.names) :
    (s.perform op).get? u = s.get? u := by
  have hedit {v : Uri} (hv : u ∉ [v]) (f : Message → Message) :
      (s.edit v f).2.get? u = s.get? u :=
    (s.get?_edit v u f).trans (if_neg (List.ne_of_not_mem_cons hv))
  cases op with
  | insert m => exact (s.get?_insert m u).trans (if_neg (List.ne_of_not_mem_cons h))
  | extend ms => exact get?_insertAll_of_not_mem h s
  | acknowledge v remote => exact hedit h _
  | confirmDelivery v => exact hedit h _
  | recordFailure v => exact hedit h _
  | clearUnread v => exact hedit h _

/-- A stored message is there after any operations, with nothing but its annotations filled in, and
so it goes on: a remote name is filled in at most once. And an operation that is not about a message
leaves it as it is. -/
theorem admitted_messages_stay (s : Store) (u : Uri) :
    (∀ m, s.get? u = some m → ∀ ops more, ∃ m₁ m₂,
      (s.performAll ops).get? u = some m₁ ∧ (s.performAll (ops ++ more)).get? u = some m₂ ∧
      m.FilledIn m₁ ∧ m₁.FilledIn m₂ ∧
      (m₁.remoteUri ≠ m.remoteUri →
        m.remoteUri = none ∧ m₁.remoteUri.isSome = true ∧ m₂.remoteUri = m₁.remoteUri)) ∧
    ∀ op : Operation, u ∉ op.names → (s.perform op).get? u = s.get? u := by
  refine ⟨fun m hm ops more => ?_, fun op hop => s.get?_perform_of_not_mem hop⟩
  obtain ⟨m₁, hm₁, hfirst⟩ := exists_filledIn hm ops
  obtain ⟨m₂, hm₂, hsecond⟩ := exists_filledIn hm₁ more
  have hrun : s.performAll (ops ++ more) = (s.performAll ops).performAll more := List.foldl_append
  refine ⟨m₁, m₂, hm₁, by rw [hrun]; exact hm₂, hfirst, hsecond, fun hne => ?_⟩
  obtain ⟨hnone, hsome⟩ := hfirst.remoteUri_of_ne hne
  exact ⟨hnone, hsome, hsecond.remoteUri_of_isSome hsome⟩

/-- An own message that failed, then was acknowledged under a remote name, then came back with other
contents and another remote name. -/
def sentMessage : Message :=
  { Message.chat ⟨"m"⟩ .outgoing (References.none.insert .proposes ⟨"x"⟩) with unread := true }

/-- Another copy, which contradicts the first one. -/
def contradictingCopy : Message :=
  { Message.chat ⟨"m"⟩ .incoming .none with remoteUri := some ⟨"late"⟩, date := 7 }

theorem admitted_messages_stay_contradicted :
    let s := (empty.insert sentMessage).2
    let ops : List Operation := [.recordFailure ⟨"m"⟩, .acknowledge ⟨"m"⟩ (some ⟨"r"⟩)]
    let more : List Operation := [.insert contradictingCopy, .confirmDelivery ⟨"other"⟩]
    s.get? ⟨"m"⟩ = some sentMessage ∧ ∃ m₁ m₂,
      (s.performAll ops).get? ⟨"m"⟩ = some m₁ ∧
      (s.performAll (ops ++ more)).get? ⟨"m"⟩ = some m₂ ∧
      sentMessage.FilledIn m₁ ∧ m₁.FilledIn m₂ ∧ m₁.remoteUri = some ⟨"r"⟩ ∧
      m₂.remoteUri = some ⟨"r"⟩ ∧ m₂.unannotated = sentMessage.unannotated ∧
      (s.perform (.confirmDelivery ⟨"other"⟩)).get? ⟨"m"⟩ = s.get? ⟨"m"⟩ := by
  intro s ops more
  obtain ⟨hstay, hother⟩ := admitted_messages_stay s ⟨"m"⟩
  have hm : s.get? ⟨"m"⟩ = some sentMessage := rfl
  obtain ⟨m₁, m₂, hm₁, hm₂, hfirst, hsecond, hremote⟩ := hstay sentMessage hm ops more
  have hr : m₁.remoteUri = some ⟨"r"⟩ := by
    have hrun : ((s.performAll ops).get? ⟨"m"⟩).bind (·.remoteUri) = some ⟨"r"⟩ := by decide +kernel
    rwa [hm₁] at hrun
  have hne : m₁.remoteUri ≠ sentMessage.remoteUri := by
    rw [hr]
    decide
  refine ⟨hm, m₁, m₂, hm₁, hm₂, hfirst, hsecond, hr, (hremote hne).2.2.trans hr, ?_, ?_⟩
  · exact (hfirst.trans hsecond).same
  · exact hother (.confirmDelivery ⟨"other"⟩) (by decide)

end Store

end Parley
