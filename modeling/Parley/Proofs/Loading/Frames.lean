/-
Which operations leave a part of what is known of connections alone, be it that they take away the
record of a whole connection.
-/
import Parley.Proofs.Loading.Operations
import Parley.Proofs.Loading.Parts

namespace Parley.Loading

variable {α : Type}

/-- The operation leaves a part alone in whatever record it touches, be it that the record is one of
a data set. It does not set how often a fetch may fail. -/
def Operation.Leaves (part : ConnectionRecord → α) : Operation → Prop
  | .assignOwner _ _ | .completeContainer _ _ => ∀ c atom, part { c with atom := atom } = part c
  | .claimDataSet _ d =>
    ∀ c, part (c.setDataSet { c.dataSet d with loading := true } d) = part c
  | .completeDataSet _ d => ∀ c, part (c.setDataSet ⟨false, true, 0, false⟩ d) = part c
  | .failDataSet _ d => ∀ c, part (c.setDataSet
      { c.dataSet d with loading := false, failCount := (c.dataSet d).failCount + 1 } d) = part c
  | .invalidatePetriNet _ =>
    ∀ c, part { c with petriNetData := { c.petriNetData with dirty := true } } = part c
  | .limitFailures _ => False
  | _ => True

namespace Tracker

/-- The failures allowed, and a part of what is known of every connection that is still known, are
the same. -/
structure SparesPart (part : ConnectionRecord → α) (t t' : Tracker) : Prop where
  limit : t'.maxFailures = t.maxFailures
  same : ∀ u, t'.connections.get? u = none ∨
    part (t'.connections.getD u .fresh) = part (t.connections.getD u .fresh)

variable {part : ConnectionRecord → α} {t t' : Tracker}

theorem SamePart.spares (h : t.SamePart part t') : t.SparesPart part t' :=
  ⟨h.limit, fun u => Or.inr (h.same u)⟩

theorem Sheds.sparesPart (h : t.Sheds t') (hlimit : t'.maxFailures = t.maxFailures) :
    t.SparesPart part t' := by
  refine ⟨hlimit, fun u => (h.connections u).imp_right fun hu => ?_⟩
  unfold UriMap.getD
  rw [hu]

variable (t)

/-- An operation that leaves a part alone and deletes nothing keeps the part of every connection. -/
theorem samePart_perform (hpart : ConnectionRecord.IsAside part) (op : Operation)
    (hrole : op.role ≠ .deletes) (h : op.Leaves part) : t.SamePart part (t.perform op).2 := by
  cases op with
  | flag kind u => exact samePart_flag hpart t kind u
  | claim kind u => exact samePart_claim hpart t kind u
  | complete kind u status => exact samePart_complete hpart t kind u status
  | fail kind u status =>
    exact samePart_fail hpart t kind u fun hs => hrole (by simp only [Operation.role, if_pos hs])
  | forgetAtom _ | forgetConnection _ | forgetAll => exact absurd rfl hrole
  | beginEdit atom => exact ⟨rfl, fun _ => rfl⟩
  | endEdit atom =>
    show t.SamePart part (t.endEdit atom)
    unfold endEdit
    split
    · exact ⟨rfl, fun _ => rfl⟩
    · exact .refl t
  | flagParticipants m => exact (allowsFlags_samePart hpart).participants t m
  | completeContainer atom connections =>
    exact t.samePart_completeContainer hpart h atom connections
  | assignOwner u atom => exact samePart_setConnection (h _ _)
  | claimPage u => exact samePart_claimPage hpart t u
  | completePage u messages nextPage => exact samePart_completePage hpart t u messages nextPage
  | failPage u messages nextPage status =>
    exact samePart_failPage hpart t u messages nextPage status
  | claimDataSet u d => exact t.samePart_claimDataSet h u
  | completeDataSet u d => exact t.samePart_completeDataSet h u
  | failDataSet u d => exact t.samePart_failDataSet h u
  | invalidatePetriNet u => exact t.samePart_invalidatePetriNet h u
  | limitFailures n => exact h.elim

/-- A deletion sets no limit. -/
theorem maxFailures_of_deletes {op : Operation} (h : op.role = .deletes) :
    (t.perform op).2.maxFailures = t.maxFailures := by
  cases op <;> try cases h
  case forgetAtom atom => rfl
  case forgetConnection u => rfl
  case forgetAll => rfl
  case fail kind u status =>
    show (t.fail kind u status).2.maxFailures = t.maxFailures
    unfold fail
    split
    · by_cases hk : kind = .connection
      · simp only [hk, if_true]
        rfl
      · simp only [hk, if_false]
        rfl
    · rename_i hs
      simp only [Operation.role, if_neg hs] at h
      cases h

/-- An operation that leaves a part alone keeps it, but for the records that it removes. -/
theorem sparesPart_perform (hpart : ConnectionRecord.IsAside part) (op : Operation)
    (h : op.Leaves part) : t.SparesPart part (t.perform op).2 := by
  by_cases hrole : op.role = .deletes
  · exact (sheds_perform hrole t).sparesPart (t.maxFailures_of_deletes hrole)
  · exact (t.samePart_perform hpart op hrole h).spares

end Tracker

end Parley.Loading
