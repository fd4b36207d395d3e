/-
What the client's moves do to the load records of agreement data. Two events report on the agreement
data of a connection; every other event, whatever it makes of connections and their records, leaves
the records of agreement data alone or takes them away with the record of their connection. So does
every change of the load records that does not handle agreement data.
-/
import Parley.Proofs.Loading.AgreementData
import Parley.Proofs.Session.Interleaving
import Parley.Proofs.Session.Owners

namespace Parley

open Loading

/-- A move that does not have to do with fetching agreement data: any event that does not report on
them, and any operation on the load records that does not handle them. -/
inductive Move.LeavesAgreements : Move → Prop
  | event (e : Event) (h : e.reportsAgreements = false) : LeavesAgreements (.event e)
  | track (op : Operation) (h : op.handlesAgreements = false) :
      LeavesAgreements (.track fun t => (t.perform op).2)

/-- So the calls that do not reconcile do not have to do with it either. -/
theorem Move.Plain.leavesAgreements {m : Move} (h : m.Plain) : m.LeavesAgreements := by
  cases h with
  | event e h => exact .event e h
  | flag kind u => exact .track (.flag kind u) rfl
  | claim kind u => exact .track (.claim kind u) rfl
  | claimPage u => exact .track (.claimPage u) rfl

namespace Session

/-! ## Messages -/

theorem allowsMessages_sameAgreements : Tracker.AllowsMessages Tracker.SameAgreements where
  toAllowsFlags := Tracker.allowsFlags_sameAgreements
  owner t u atom := t.sameAgreements_perform (.assignOwner u atom) nofun rfl
  petriNet t u := t.sameAgreements_perform (.invalidatePetriNet u) nofun rfl

/-! ## Data of atoms and connections -/

theorem sameAgreements_takeContainer (s : Session) (atom : Uri) (data : List ConnectionDocument) :
    s.tracker.SameAgreements (s.takeContainer atom data).tracker :=
  (s.tracker.sameAgreements_perform (.completeContainer atom _) nofun rfl).trans
    (allowsMessages_sameAgreements.takeContainer s atom data)

theorem sameAgreements_takeConnection (s : Session) (d : ConnectionDocument) :
    s.tracker.SameAgreements (s.takeConnection d).tracker :=
  (s.tracker.sameAgreements_perform (.complete .connection d.uri none) nofun rfl).trans
    (allowsMessages_sameAgreements.takeConnection s d)

theorem spares_takeAtom (s : Session) (data : AtomDocument) :
    s.tracker.SparesAgreements (s.takeAtom data).tracker := by
  have hcompleted : s.tracker.SameAgreements (s.tracker.complete .atom data.uri none).2 :=
    s.tracker.sameAgreements_perform (.complete .atom data.uri none) nofun rfl
  unfold takeAtom
  split
  · exact (Tracker.SameAgreements.refl _).spares
  · rename_i t ht
    rw [ht] at hcompleted
    split
    · exact hcompleted.trans_spares (t.spares_perform (.forgetAtom data.uri) rfl)
    · exact hcompleted.spares

theorem spares_takeFailure (s : Session) (kind : ResourceKind) (u : Uri) (e : NodeFailure) :
    s.tracker.SparesAgreements (s.takeFailure kind u e).tracker := by
  rw [tracker_takeFailure]
  exact s.tracker.spares_perform (.fail kind u e.toStatus) rfl

/-! ## Events and moves -/

/-- An event that does not report on agreement data leaves the records of the agreement data alone,
but for those that it removes. -/
theorem spares_apply (s : Session) {e : Event} (h : e.reportsAgreements = false) :
    s.tracker.SparesAgreements (s.apply e).tracker := by
  have hsame : s.tracker.SameAgreements s.tracker := .refl _
  let t : Session := { s with version := s.version + 1 }
  cases e with
  | atomLoaded data => exact t.spares_takeAtom data
  | atomLoadFailed u e => exact t.spares_takeFailure .atom u e
  | containerLoadFailed u e => exact t.spares_takeFailure .container u e
  | connectionLoadFailed u e => exact t.spares_takeFailure .connection u e
  | atomDeactivated u | atomActivated u | messageSent u m | sendFailed u event => exact hsame.spares
  | atomDeleted u => exact s.tracker.spares_perform (.forgetAtom u) rfl
  | containerLoaded atom data => exact (t.sameAgreements_takeContainer atom data).spares
  | connectionLoaded d => exact (t.sameAgreements_takeConnection d).spares
  | messagesLoaded u page =>
    have htaken := allowsMessages_sameAgreements.takeMessages
      (Message.chronological page.messages) t u
    exact (htaken.trans (Tracker.sameAgreements_perform _ (.completePage ..) nofun rfl)).spares
  | messagesLoadFailed u messages nextPage e =>
    exact s.tracker.spares_perform (.failPage u messages nextPage e.toStatus) rfl
  | messageReceived u m => exact (allowsMessages_sameAgreements.takeMessage t u m).spares
  | sendSucceeded u event remote =>
    exact (allowsMessages_sameAgreements.takeAcknowledgement t u event remote).spares
  | agreementReconciled u view fetched | agreementFailed u => cases h
  | loggedOut => exact s.tracker.spares_perform .forgetAll rfl

theorem spares_move (s : Session) {m : Move} (h : m.LeavesAgreements) :
    s.tracker.SparesAgreements (s.move m).tracker := by
  cases h with
  | event e h => exact s.spares_apply h
  | track op h => exact s.tracker.spares_perform op h

/-! ## What concerns the agreement data of one connection only -/

/-- Of the client's state at most a connection differs, and of the load records at most that of its
agreement data. -/
structure ReachesOnly (s s' : Session) (u : Uri) : Prop where
  atoms : s'.atoms = s.atoms
  connections : ∀ v, v ≠ u → s'.connections.get? v = s.connections.get? v
  tracker : s.tracker.OnlyAgreement s'.tracker u

theorem ReachesOnly.refl (s : Session) (u : Uri) : s.ReachesOnly s u :=
  ⟨rfl, fun _ _ => rfl, .refl _ u⟩

theorem reachesOnly_tracker (s : Session) {t : Tracker} {u : Uri}
    (h : s.tracker.OnlyAgreement t u) : s.ReachesOnly { s with tracker := t } u :=
  ⟨rfl, fun _ _ => rfl, h⟩

theorem reachesOnly_agreementReconciled (s : Session) (u : Uri) (view : AgreementView)
    (fetched : List Message) : s.ReachesOnly (s.apply (.agreementReconciled u view fetched)) u where
  atoms := rfl
  connections v hv := by
    show (s.connections.modify u _).get? v = _
    rw [UriMap.get?_modify, if_neg hv]
  tracker := (s.tracker.completeDataSet_agreementData u).1

theorem reachesOnly_agreementFailed (s : Session) (u : Uri) :
    s.ReachesOnly (s.apply (.agreementFailed u)) u where
  atoms := rfl
  connections _ _ := rfl
  tracker := (s.tracker.failDataSet_agreementData u).1

end Session

end Parley
