/-
Changes of the load records that are made of smaller ones. What is said of two states of the records,
and holds across every single flag, holds across everything that only flags: the participants of a
message, and the connections that a container lists, apart from the bindings that go with them.
-/
import Parley.Loading.Tracker

namespace Parley.Loading.Tracker

/-- A relation between load records that holds across flags. -/
structure AllowsFlags (R : Tracker → Tracker → Prop) : Prop where
  refl : ∀ t, R t t
  trans : ∀ {t t' t''}, R t t' → R t' t'' → R t t''
  flag : ∀ (t : Tracker) kind u, R t (t.flag kind u).2

namespace AllowsFlags

variable {R : Tracker → Tracker → Prop} (h : AllowsFlags R)
include h

theorem participants (t : Tracker) (m : Message) : R t (t.flagParticipants m) := by
  have hall (us : List Uri) (t : Tracker) :
      R t (us.foldl (fun t u => (t.flag .atom u).2) t) := by
    induction us generalizing t with
    | nil => exact h.refl t
    | cons u us ih => exact h.trans (h.flag t .atom u) (ih _)
  unfold flagParticipants
  split
  · exact h.refl t
  · exact hall _ t

/-- Taking in the connections that a container lists flags some of them, and binds them. -/
theorem addListed (atom : Uri) {connections : List (Uri × Option Uri)}
    (hbind : ∀ listed ∈ connections, ∀ t : Tracker, R t (t.bindConnection listed.1 atom))
    (t : Tracker) : R t (connections.foldl (Tracker.addListed atom) t) := by
  induction connections generalizing t with
  | nil => exact h.refl t
  | cons listed connections ih =>
    rw [List.forall_mem_cons] at hbind
    have hone : R t (Tracker.addListed atom t listed) := by
      have hbound := h.trans (h.flag t .connection listed.1) (hbind.1 _)
      unfold Tracker.addListed
      cases listed.2 with
      | none => exact hbound
      | some target => exact h.trans hbound (h.flag _ .atom target)
    exact h.trans hone (ih hbind.2 _)

end AllowsFlags

end Parley.Loading.Tracker
