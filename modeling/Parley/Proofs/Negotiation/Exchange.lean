/-
Exchanges in which a side sends only what its own check lets through. The rules count an accept of
either side; that nobody makes an agreement alone rests on the check of the sender, which refuses an
accept of an own message. So every accept of a message comes from the other side where the author of
the message is checked, and a counterpart that is not checked may accept its own proposals.

A check sees the store of its connection at the time, which holds copies of earlier messages of the
exchange, maybe not all of them and maybe without their remote names. What it finds under the
reference of an accept is a message of the other side. An identifier never names messages of both
sides, so whatever the reference leads to elsewhere is of the other side as well.
-/
import Parley.Proofs.Negotiation.Rules
import Parley.Proofs.Session.Run

namespace Parley

/-! ## Messages as each side has them -/

/-- The message as the counterpart has it: under the other name first, in the other direction. -/
def Message.mirror (m : Message) : Message :=
  match m.remoteUri with
  | some r => { m with uri := r, remoteUri := some m.uri, direction := m.direction.flip }
  | none => { m with direction := m.direction.flip }

/-- The names a message is known under. -/
def Message.names (m : Message) : List Uri :=
  m.uri :: m.remoteUri.toList

/-- A copy of a message at an earlier time, when its remote name may not have been known. -/
structure Message.IsCopyOf (copy m : Message) : Prop where
  uri : copy.uri = m.uri
  remote : copy.remoteUri = none ∨ copy.remoteUri = m.remoteUri
  kind : copy.kind = m.kind
  direction : copy.direction = m.direction
  hasContent : copy.hasContent = m.hasContent

namespace Message

@[simp] theorem direction_mirror (m : Message) : m.mirror.direction = m.direction.flip := by
  unfold mirror
  cases m.remoteUri <;> rfl

@[simp] theorem references_mirror (m : Message) : m.mirror.references = m.references := by
  unfold mirror
  cases m.remoteUri <;> rfl

@[simp] theorem hasContent_mirror (m : Message) : m.mirror.hasContent = m.hasContent := by
  unfold mirror
  cases m.remoteUri <;> rfl

@[simp] theorem hasName_mirror (m : Message) (u : Uri) : m.mirror.hasName u = m.hasName u := by
  unfold mirror hasName
  cases hr : m.remoteUri with
  | none => simp
  | some r => simp [Bool.or_comm]

theorem mem_names {m : Message} {u : Uri} : u ∈ m.names ↔ m.hasName u = true := by
  rw [hasName_iff, names, List.mem_cons, Option.mem_toList, eq_comm]

theorem IsCopyOf.refl (m : Message) : m.IsCopyOf m :=
  ⟨rfl, Or.inr rfl, rfl, rfl, rfl⟩

theorem IsCopyOf.hasName {copy m : Message} (h : copy.IsCopyOf m) {u : Uri}
    (hu : copy.hasName u = true) : m.hasName u = true := by
  rw [hasName_iff] at hu ⊢
  rcases hu with hu | hu
  · exact Or.inl (h.uri ▸ hu)
  · rcases h.remote with hnone | hsame
    · rw [hnone] at hu
      cases hu
    · exact Or.inr (hsame ▸ hu)

theorem IsCopyOf.references {copy m : Message} (h : copy.IsCopyOf m) :
    copy.references = m.references := by
  unfold Message.references
  rw [h.kind]

end Message

@[simp] theorem Direction.flip_flip (d : Direction) : d.flip.flip = d := by
  cases d <;> rfl

/-! ## Exchanges -/

/-- A store that was made of copies of the messages given. -/
structure Store.Holds (s : Store) (ms : List Message) : Prop where
  reachable : s.Reachable
  copies : ∀ m ∈ s.toList, ∃ k ∈ ms, m.IsCopyOf k

theorem Store.Holds.of_subset {s : Store} {ms : List Message} (hs : s.Reachable)
    (h : ∀ m ∈ s.toList, m ∈ ms) : s.Holds ms :=
  ⟨hs, fun m hm => ⟨m, h m hm, .refl m⟩⟩

/-- The connection sends the message: its check lets an intent through of which this is made. -/
def Connection.Sends (c : Connection) (n : Message) : Prop :=
  ∃ settings intent stamp, Call.checkIntent c intent = .ok () ∧
    (Call.compose settings c intent stamp).message.IsCopyOf n

/-- The messages of an exchange, the newest first, in which the own side sends only what its check
lets through and the counterpart sends anything. -/
inductive OwnSideChecked : List Message → Prop
  | nil : OwnSideChecked []
  | received {ms : List Message} {n : Message} :
      OwnSideChecked ms → n.direction = .incoming → OwnSideChecked (n :: ms)
  | sent {ms : List Message} {n : Message} {c : Connection} :
      OwnSideChecked ms → c.store.Holds ms → c.Sends n → OwnSideChecked (n :: ms)

/-- No identifier names messages of both sides. -/
def NamesApart (ms : List Message) : Prop :=
  ∀ m ∈ ms, ∀ n ∈ ms, ∀ u ∈ m.names, u ∈ n.names → m.direction = n.direction

instance (ms : List Message) : Decidable (NamesApart ms) :=
  inferInstanceAs
    (Decidable (∀ m ∈ ms, ∀ n ∈ ms, ∀ u ∈ m.names, u ∈ n.names → m.direction = n.direction))

/-- Where the author of an accept is on a side, what it accepts is a message of the other side. -/
def AcceptsOther (ms : List Message) (d : Direction) : Prop :=
  ∀ n ∈ ms, n.direction = d → ∀ r, r ∈ n.references.get .accepts →
    ∃ k ∈ ms, k.direction = d.flip ∧ k.hasName r = true

theorem AcceptsOther.cons {ms : List Message} {d : Direction} (h : AcceptsOther ms d) {n : Message}
    (hn : n.direction = d → ∀ r, r ∈ n.references.get .accepts →
      ∃ k ∈ ms, k.direction = d.flip ∧ k.hasName r = true) : AcceptsOther (n :: ms) d := by
  have hearlier {r : Uri} (hr : ∃ k ∈ ms, k.direction = d.flip ∧ k.hasName r = true) :
      ∃ k ∈ n :: ms, k.direction = d.flip ∧ k.hasName r = true := by
    obtain ⟨k, hk, hkr⟩ := hr
    exact ⟨k, List.mem_cons_of_mem _ hk, hkr⟩
  intro x hx hd r hr
  rcases List.mem_cons.1 hx with rfl | hx
  · exact hearlier (hn hd r hr)
  · exact hearlier (h x hx hd r hr)

/-- What a connection sends accepts only messages of the counterpart. -/
theorem Connection.Sends.accepts {c : Connection} {n : Message} (h : c.Sends n)
    (hc : c.store.Coherent) {r : Uri} (hr : r ∈ n.references.get .accepts) :
    ∃ m ∈ c.store.toList, m.direction = .incoming ∧ m.hasName r = true := by
  obtain ⟨settings, intent, stamp, hok, hcopy⟩ := h
  rw [← hcopy.references] at hr
  obtain ⟨a, rfl, ha⟩ := Call.mem_references_compose hr
  obtain rfl : a = .accept := by
    cases a <;> first | rfl | cases ha
  obtain ⟨-, m, hm, -, hq⟩ := Call.checkIntent_negotiate_iff.1 hok
  obtain ⟨hmem, hname⟩ := hc.of_find? hm
  refine ⟨m, hmem, ?_, hname⟩
  cases hd : m.direction with
  | incoming => rfl
  | outgoing => simp [Action.qualifies, Message.isOwn, hd] at hq

/-- The own side of a checked exchange accepts only messages of the counterpart. -/
theorem OwnSideChecked.acceptsOther {ms : List Message} (h : OwnSideChecked ms) :
    AcceptsOther ms .outgoing := by
  induction h with
  | nil => exact fun n hn => absurd hn List.not_mem_nil
  | received _ hd ih =>
    refine ih.cons fun ho => ?_
    rw [hd] at ho
    cases ho
  | sent _ hs hsends ih =>
    -- what the check found in the store is a copy of an earlier message
    refine ih.cons fun _ r hr => ?_
    obtain ⟨m, hm, hd, hname⟩ := hsends.accepts hs.reachable.coherent hr
    obtain ⟨k, hk, hcopy⟩ := hs.copies m hm
    exact ⟨k, hk, hcopy.direction ▸ hd, hcopy.hasName hname⟩

theorem AcceptsOther.of_mirror {ms : List Message} {d : Direction}
    (h : AcceptsOther (ms.map Message.mirror) d) : AcceptsOther ms d.flip := by
  intro n hn hd r hr
  have hnd : n.mirror.direction = d := by simp [hd]
  obtain ⟨k', hk', hkd, hkr⟩ := h n.mirror (List.mem_map_of_mem hn) hnd r (by simpa using hr)
  obtain ⟨k, hk, rfl⟩ := List.mem_map.1 hk'
  refine ⟨k, hk, ?_, by simpa using hkr⟩
  rw [← hkd]
  simp

/-! ## A deal between two checked sides -/

/-- A message of an exchange, known under a name of each side. -/
def exchanged (number : String) (direction : Direction) (references : References) : Message :=
  { Message.chat ⟨"own/event/" ++ number⟩ direction references with
    remoteUri := some ⟨"peer/event/" ++ number⟩ }

/-- The counterpart proposes a message of its own. -/
def offer : Message :=
  exchanged "2" .incoming (References.none.insert .proposes ⟨"peer/event/1"⟩)

/-- The own side accepts the proposal. -/
def deal : List Message :=
  [exchanged "3" .outgoing (References.none.insert .accepts ⟨"own/event/2"⟩), offer,
    exchanged "1" .incoming .none]

def connectedWith (ms : List Message) : Connection :=
  { Connection.fresh ⟨"own"⟩ ⟨"own#s"⟩ ⟨"peer#s"⟩ (.resume .connected) with store := .ofList ms }

theorem holds_ofList {ms : List Message} (h : ∀ m ∈ (Store.ofList ms).toList, m ∈ ms) :
    (Store.ofList ms).Holds ms :=
  .of_subset (Store.reachable_ofList ms) h

theorem deal_checked : OwnSideChecked deal := by
  refine .sent (c := connectedWith deal.tail) ?_ (holds_ofList (by decide)) ?_
  · exact .received (.received .nil rfl) rfl
  · exact ⟨⟨"own", "owner", 1, 3⟩, .negotiate .accept ⟨"own/event/2"⟩, ⟨"3", 0⟩, by decide,
      by decide, Or.inl rfl, rfl, rfl, rfl⟩

theorem deal_mirror_checked : OwnSideChecked (deal.map Message.mirror) := by
  refine .received ?_ rfl
  refine .sent (c := connectedWith (deal.tail.tail.map Message.mirror)) ?_
    (holds_ofList (by decide)) ?_
  · refine .sent (c := connectedWith []) .nil (holds_ofList (by decide)) ?_
    exact ⟨⟨"peer", "owner", 1, 3⟩, .chat "", ⟨"1", 0⟩, by decide, by decide, Or.inl rfl, rfl, rfl,
      rfl⟩
  · exact ⟨⟨"peer", "owner", 1, 3⟩, .negotiate .propose ⟨"peer/event/1"⟩, ⟨"2", 0⟩, by decide,
      by decide, Or.inl rfl, rfl, rfl, rfl⟩

/-! ## Accepts come from the other side -/

open Rules

/-- What an accept refers to is of the other side, wherever the reference leads. -/
theorem AcceptsOther.direction_of_validAccept {ms : List Message} {s : Store} {a m : Message}
    (h : AcceptsOther ms a.direction) (hnames : NamesApart ms) (hs : s.Holds ms)
    (hm : m ∈ s.toList) (ha : ValidAccept s.toList a m) : m.direction = a.direction.flip := by
  obtain ⟨hamem, ⟨r, hr, hmr⟩, -⟩ := ha
  obtain ⟨ka, hka, hacopy⟩ := hs.copies a hamem
  obtain ⟨km, hkm, hmcopy⟩ := hs.copies m hm
  rw [hacopy.references] at hr
  -- the reference names a message of the other side, and so everything it names is of that side
  obtain ⟨k, hk, hkd, hkr⟩ := h ka hka hacopy.direction.symm r hr
  rw [hmcopy.direction, hnames km hkm k hk r (Message.mem_names.2 (hmcopy.hasName hmr))
    (Message.mem_names.2 hkr), hkd]

/-- In every store of an exchange whose own side is checked, an accepted own message has a valid
accept of the counterpart and none of the own side; if the counterpart is checked as well, the
accepts of every accepted message are of the side opposite to it. -/
theorem accepts_come_from_other_side {ms : List Message} (hown : OwnSideChecked ms)
    (hnames : NamesApart ms) {s : Store} (hs : s.Holds ms) {m : Message} (hm : m ∈ s.toList)
    (hside : m.direction = .outgoing ∨ OwnSideChecked (ms.map Message.mirror))
    (haccepted : (s.backlinks.status m).accepted = true) :
    (∃ a, ValidAccept s.toList a m ∧ a.direction = m.direction.flip) ∧
      ∀ a, ValidAccept s.toList a m → a.direction = m.direction.flip := by
  have hall (a : Message) (ha : ValidAccept s.toList a m) : a.direction = m.direction.flip := by
    cases hd : a.direction with
    | outgoing =>
      have hother : AcceptsOther ms a.direction := hd ▸ hown.acceptsOther
      rw [hother.direction_of_validAccept hnames hs hm ha, hd]
      rfl
    | incoming =>
      rcases hside with hmd | hpeer
      · rw [hmd]
        rfl
      · have hother : AcceptsOther ms a.direction := hd ▸ hpeer.acceptsOther.of_mirror
        rw [hother.direction_of_validAccept hnames hs hm ha, hd]
        rfl
  obtain ⟨a, ha⟩ := (Backlinks.accepted_iff hs.reachable.coherent).1 haccepted
  exact ⟨⟨a, ha, hall a ha⟩, hall⟩

theorem accepts_come_from_other_side_deal :
    OwnSideChecked deal ∧ OwnSideChecked (deal.map Message.mirror) ∧
      ∃ a, ValidAccept (Store.ofList deal).toList a offer ∧ a.direction = .outgoing := by
  have hnames : NamesApart deal := by decide
  have hm : offer ∈ (Store.ofList deal).toList := by decide
  obtain ⟨haccept, -⟩ := accepts_come_from_other_side deal_checked hnames
    (holds_ofList (by decide)) hm (Or.inr deal_mirror_checked) (by decide)
  exact ⟨deal_checked, deal_mirror_checked, haccept⟩

/-- A counterpart that accepts its own proposal. -/
def selfDealing : Store :=
  .ofList
    [exchanged "1" .incoming .none, offer,
      exchanged "3" .incoming (References.none.insert .accepts ⟨"peer/event/2"⟩)]

/-- Incoming messages alone make an incoming proposal agreed. -/
theorem incoming_accept_agrees_incoming_proposal :
    selfDealing.Reachable ∧
      (∀ m ∈ selfDealing.toList, m.direction = .incoming) ∧ offer ∈ selfDealing.toList ∧
      offer.references.has .proposes = true ∧
      (selfDealing.backlinks.status offer).accepted = true ∧
      (selfDealing.backlinks.status offer).agreed = true ∧
      ¬ ∃ a, ValidAccept selfDealing.toList a offer ∧ a.direction = offer.direction.flip := by
  have hincoming : ∀ a ∈ selfDealing.toList, a.direction = .incoming := by decide
  refine ⟨Store.reachable_ofList _, hincoming, by decide, by decide, by decide, by decide, ?_⟩
  rintro ⟨a, ha, hd⟩
  rw [hincoming a ha.1] at hd
  cases hd

end Parley
