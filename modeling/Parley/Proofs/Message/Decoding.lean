/-
Decoding a wire record. A record with a blank identifier is reported as such, then a type whose local
name is not known, and every other record describes one message. The message keeps the identifier,
the direction, the flags and the date; an optional identifier is there if it is given and not blank;
a chat message refers, under each kind, to the identifiers of that kind's list that are not blank,
and any other message refers to nothing. Main statement: which message a record describes, told
field by field, and that it is what decoding answers.
-/
import Parley.Message.Wire

namespace Parley

/-! ## Message types -/

namespace MessageKind

/-- A character that ends the vocabulary part of a message type. -/
def IsSeparator (c : Char) : Prop :=
  c = '#' ∨ c = ':' ∨ c = '/'

instance (c : Char) : Decidable (IsSeparator c) :=
  inferInstanceAs (Decidable (_ ∨ _))

/-- The local name of a message type has no separator, and is all of the type or follows its last
separator. -/
structure IsLocalName (type name : String) : Prop where
  plain : ∀ c ∈ name.toList, ¬ IsSeparator c
  ends : type = name ∨ ∃ vocabulary sep, IsSeparator sep ∧
    type.toList = vocabulary ++ sep :: name.toList

/-- The known local names with the kinds they stand for, a chat message without its references. -/
def known : List (String × MessageKind) :=
  [("ConnectMessage", .connect), ("OpenMessage", .opening), ("ConnectionMessage", .chat .none),
    ("CloseMessage", .close), ("FeedbackMessage", .feedback), ("AtomHintMessage", .atomHint),
    ("HintMessage", .atomHint), ("SocketHintMessage", .socketHint),
    ("ChangeNotificationMessage", .changeNotification), ("SuccessResponse", .response true),
    ("FailureResponse", .response false)]

/-- The kind of a chat message with other references; no other kind has any. -/
def withReferences (references : References) : MessageKind → MessageKind
  | .chat _ => .chat references
  | kind => kind

/-- Whether messages of the kind refer to others. -/
def isChat : MessageKind → Bool
  | .chat _ => true
  | _ => false

section

variable {type name : String} {references : References} {kind kind' : MessageKind}

theorem not_isSeparator_iff {c : Char} :
    (c != '#' && c != ':' && c != '/') = true ↔ ¬ IsSeparator c := by
  simp [IsSeparator, and_assoc]

theorem isLocalName_localName (type : String) : IsLocalName type (localName type) := by
  have hsplit := List.takeWhile_append_dropWhile (l := type.toList.reverse)
    (p := fun c => c != '#' && c != ':' && c != '/')
  have hname : (localName type).toList =
      (type.toList.reverse.takeWhile fun c => c != '#' && c != ':' && c != '/').reverse := by
    rw [localName, String.toList_ofList]
  constructor
  · intro c hc
    rw [hname, List.mem_reverse] at hc
    exact not_isSeparator_iff.1 (List.all_eq_true.1 List.all_takeWhile c hc)
  · cases hrest : type.toList.reverse.dropWhile fun c => c != '#' && c != ':' && c != '/' with
    | nil =>
      left
      rw [hrest, List.append_nil] at hsplit
      rw [localName, hsplit, List.reverse_reverse, String.ofList_toList]
    | cons sep rest =>
      right
      have hsep := List.head?_dropWhile_not (fun c => c != '#' && c != ':' && c != '/')
        type.toList.reverse
      rw [hrest] at hsep
      refine ⟨rest.reverse, sep, ?_, ?_⟩
      · exact Decidable.not_not.1 fun hplain => by simp [not_isSeparator_iff.2 hplain] at hsep
      · have htype := congrArg List.reverse hsplit
        rw [hrest, List.reverse_reverse, List.reverse_append, List.reverse_cons,
          List.append_assoc, ← hname] at htype
        exact htype.symm

/-- The local name of a type is what follows the last separator, and a type has no other. -/
theorem isLocalName_iff : IsLocalName type name ↔ localName type = name := by
  constructor
  · rintro ⟨hplain, hends⟩
    have hall : ∀ c ∈ name.toList.reverse, (c != '#' && c != ':' && c != '/') = true :=
      fun c hc => not_isSeparator_iff.2 (hplain c (List.mem_reverse.1 hc))
    have htake : (type.toList.reverse.takeWhile fun c => c != '#' && c != ':' && c != '/') =
        name.toList.reverse := by
      rcases hends with rfl | ⟨vocabulary, sep, hsep, htype⟩
      · rw [← List.append_nil type.toList.reverse, List.takeWhile_append_of_pos hall,
          List.takeWhile_nil]
      · rw [htype, List.reverse_append, List.reverse_cons, List.append_assoc,
          List.takeWhile_append_of_pos hall, List.singleton_append, List.takeWhile_cons_of_neg,
          List.append_nil]
        exact fun h => not_isSeparator_iff.1 h hsep
    rw [localName, htake, List.reverse_reverse, String.ofList_toList]
  · rintro rfl
    exact isLocalName_localName type

theorem mem_known_iff : (name, kind) ∈ known ↔ ofLocalName? .none name = some kind := by
  constructor
  · intro h
    simp only [known, List.mem_cons, Prod.mk.injEq, List.not_mem_nil, or_false] at h
    rcases h with h | h | h | h | h | h | h | h | h | h | h <;> (obtain ⟨rfl, rfl⟩ := h; rfl)
  · intro h
    unfold ofLocalName? at h
    split at h <;> cases h <;> simp [known]

theorem ofLocalName?_eq_map :
    ofLocalName? references name = (ofLocalName? .none name).map (withReferences references) := by
  unfold ofLocalName?
  split <;> rfl

theorem isChat_withReferences : (kind.withReferences references).isChat = kind.isChat := by
  cases kind <;> rfl

theorem withReferences_withReferences :
    (kind.withReferences references).withReferences .none = kind.withReferences .none := by
  cases kind <;> rfl

theorem references_withReferences :
    (kind.withReferences references).references = if kind.isChat then references else .none := by
  cases kind <;> rfl

theorem withReferences_none_of_mem_known (h : (name, kind) ∈ known) :
    kind.withReferences .none = kind := by
  simp only [known, List.mem_cons, Prod.mk.injEq, List.not_mem_nil, or_false] at h
  rcases h with h | h | h | h | h | h | h | h | h | h | h <;> (obtain ⟨-, rfl⟩ := h; rfl)

/-- The kind of a type is that of its local name, with the references given; a type whose local name
is not known is refused with it. -/
theorem ofType_cases (type : String) (references : References) :
    (∃ kind, (localName type, kind) ∈ known ∧
      ofType type references = .ok (kind.withReferences references)) ∨
    (∀ kind, (localName type, kind) ∉ known) ∧
      ofType type references = .error (.unsupportedType (localName type)) := by
  unfold ofType
  rw [ofLocalName?_eq_map]
  cases hlocal : ofLocalName? .none (localName type) with
  | none =>
    refine Or.inr ⟨fun kind hknown => ?_, rfl⟩
    rw [mem_known_iff.1 hknown] at hlocal
    cases hlocal
  | some kind => exact Or.inl ⟨kind, mem_known_iff.2 hlocal, rfl⟩

/-- A kind is told by what it is without its references, and by these. -/
theorem eq_of_references_eq (h : kind.withReferences .none = kind'.withReferences .none)
    (hrefs : kind.references = kind'.references) : kind = kind' := by
  cases kind <;> cases kind' <;> simp_all [withReferences, MessageKind.references]

end

end MessageKind

/-! ## Records -/

namespace WireRecord

open MessageKind

/-- The message that a record describes. -/
structure Describes (r : WireRecord) (m : Message) : Prop where
  uri : m.uri.text = r.uri
  kind : ∃ name, IsLocalName r.messageType name ∧ (name, m.kind.withReferences .none) ∈ known
  references : ∀ k u, u ∈ m.references.get k ↔
    m.kind.isChat = true ∧ u.text ∈ r.references.get k ∧ u.isBlank = false
  remoteUri : ∀ u, m.remoteUri = some u ↔ r.remoteUri = some u.text ∧ u.isBlank = false
  senderSocket : ∀ u, m.senderSocket = some u ↔ r.senderSocketUri = some u.text ∧ u.isBlank = false
  targetSocket : ∀ u, m.targetSocket = some u ↔ r.targetSocketUri = some u.text ∧ u.isBlank = false
  direction : m.direction = .outgoing ↔ r.outgoingMessage = true
  hasContent : m.hasContent = r.hasContent
  systemMessage : m.systemMessage = r.systemMessage
  date : m.date = r.date
  unread : m.unread = r.unread
  receivedByOwn : m.delivery.receivedByOwn = r.receivedByOwn
  receivedByRemote : m.delivery.receivedByRemote = r.receivedByRemote
  failedToSend : m.delivery.failedToSend = r.failedToSend

section

variable {r : WireRecord} {m m' : Message}

/-- An optional identifier is there if it is given and not blank. -/
theorem nonBlank_eq_some_iff {given : Option String} {u : Uri} :
    (given.bind fun s => Uri.nonBlank? ⟨s⟩) = some u ↔
      given = some u.text ∧ u.isBlank = false := by
  rw [Option.bind_eq_some_iff]
  constructor
  · rintro ⟨s, rfl, hs⟩
    obtain ⟨rfl, hblank⟩ := Uri.nonBlank?_eq_some_iff.1 hs
    exact ⟨rfl, hblank⟩
  · rintro ⟨rfl, hblank⟩
    exact ⟨u.text, rfl, Uri.nonBlank?_eq_some_iff.2 ⟨rfl, hblank⟩⟩

theorem mem_references_iff {k : ReferenceKind} {u : Uri} :
    u ∈ (References.ofLists (r.references.map (·.map Uri.mk))).get k ↔
      u.text ∈ r.references.get k ∧ u.isBlank = false := by
  rw [References.mem_get_ofLists, ByKind.get_map, List.mem_map]
  refine and_congr_left' ⟨?_, fun h => ⟨u.text, h, rfl⟩⟩
  rintro ⟨s, hs, rfl⟩
  exact hs

/-- Two messages that a record describes are the same. -/
theorem Describes.unique (h : r.Describes m) (h' : r.Describes m') : m = m' := by
  have hbare : m.kind.withReferences .none = m'.kind.withReferences .none := by
    obtain ⟨name, hname, hknown⟩ := h.kind
    obtain ⟨name', hname', hknown'⟩ := h'.kind
    obtain rfl : name = name' := (isLocalName_iff.1 hname).symm.trans (isLocalName_iff.1 hname')
    exact Option.some.inj ((mem_known_iff.1 hknown).symm.trans (mem_known_iff.1 hknown'))
  have hchat : m.kind.isChat = m'.kind.isChat := by
    have hbareChat (kind : MessageKind) : (kind.withReferences .none).isChat = kind.isChat :=
      isChat_withReferences
    rw [← hbareChat, hbare, hbareChat]
  have hrefs : m.references = m'.references := by
    refine ByKind.ext_get fun k => UriSet.ext_mem fun u => ?_
    rw [h.references, h'.references, hchat]
  have hkind : m.kind = m'.kind := eq_of_references_eq hbare hrefs
  have huri : m.uri = m'.uri := Uri.ext_text (h.uri.trans h'.uri.symm)
  have hremote : m.remoteUri = m'.remoteUri :=
    Option.ext fun u => (h.remoteUri u).trans (h'.remoteUri u).symm
  have hsender : m.senderSocket = m'.senderSocket :=
    Option.ext fun u => (h.senderSocket u).trans (h'.senderSocket u).symm
  have htarget : m.targetSocket = m'.targetSocket :=
    Option.ext fun u => (h.targetSocket u).trans (h'.targetSocket u).symm
  have hdirection : m.direction = m'.direction := by
    have hout := h.direction.trans h'.direction.symm
    revert hout
    cases m.direction <;> cases m'.direction <;> simp
  have hdelivery : m.delivery = m'.delivery := by
    have hown := h.receivedByOwn.trans h'.receivedByOwn.symm
    have hother := h.receivedByRemote.trans h'.receivedByRemote.symm
    have hfailed := h.failedToSend.trans h'.failedToSend.symm
    revert hown hother hfailed
    cases m.delivery
    cases m'.delivery
    rintro rfl rfl rfl
    rfl
  have hcontent := h.hasContent.trans h'.hasContent.symm
  have hsystem := h.systemMessage.trans h'.systemMessage.symm
  have hdate := h.date.trans h'.date.symm
  have hunread := h.unread.trans h'.unread.symm
  cases m
  cases m'
  simp_all

/-- What a record says of a message of the given kind. -/
def ofKind (r : WireRecord) (kind : MessageKind) : Message where
  uri := ⟨r.uri⟩
  remoteUri := r.remoteUri.bind fun s => Uri.nonBlank? ⟨s⟩
  kind := kind
  direction := .ofOutgoing r.outgoingMessage
  hasContent := r.hasContent
  systemMessage := r.systemMessage
  senderSocket := r.senderSocketUri.bind fun s => Uri.nonBlank? ⟨s⟩
  targetSocket := r.targetSocketUri.bind fun s => Uri.nonBlank? ⟨s⟩
  date := r.date
  unread := r.unread
  delivery := ⟨r.receivedByOwn, r.receivedByRemote, r.failedToSend⟩

theorem toMessage_of_blank (h : Text.isBlank r.uri = true) : r.toMessage = .error .blankUri :=
  if_pos h

theorem toMessage_of_nonBlank (h : Text.isBlank r.uri = false) :
    r.toMessage =
      match ofType r.messageType (.ofLists (r.references.map (·.map Uri.mk))) with
      | .error e => .error e
      | .ok kind => .ok (r.ofKind kind) :=
  if_neg (Bool.eq_false_iff.1 h)

theorem describes_ofKind {kind : MessageKind} (h : (localName r.messageType, kind) ∈ known) :
    r.Describes (r.ofKind (kind.withReferences
      (.ofLists (r.references.map (·.map Uri.mk))))) where
  uri := rfl
  kind := by
    refine ⟨_, isLocalName_localName _, ?_⟩
    rw [ofKind, withReferences_withReferences, withReferences_none_of_mem_known h]
    exact h
  references k u := by
    rw [Message.references, ofKind, references_withReferences, isChat_withReferences]
    split
    · rename_i hchat
      rw [mem_references_iff, hchat]
      simp
    · rename_i hchat
      simp [hchat]
  remoteUri u := nonBlank_eq_some_iff
  senderSocket u := nonBlank_eq_some_iff
  targetSocket u := nonBlank_eq_some_iff
  direction := by
    rw [ofKind]
    cases r.outgoingMessage <;> simp [Direction.ofOutgoing]
  hasContent := rfl
  systemMessage := rfl
  date := rfl
  unread := rfl
  receivedByOwn := rfl
  receivedByRemote := rfl
  failedToSend := rfl

/-- A record is refused for its identifier, or else for its type, or else it describes what decoding
makes of it. -/
theorem toMessage_cases (r : WireRecord) :
    (Text.isBlank r.uri = true ∧ r.toMessage = .error .blankUri) ∨
    (Text.isBlank r.uri = false ∧ (∀ kind, (localName r.messageType, kind) ∉ known) ∧
      r.toMessage = .error (.unsupportedType (localName r.messageType))) ∨
    (Text.isBlank r.uri = false ∧ (∃ kind, (localName r.messageType, kind) ∈ known) ∧
      ∃ m, r.toMessage = .ok m ∧ r.Describes m) := by
  cases hblank : Text.isBlank r.uri with
  | true => exact Or.inl ⟨rfl, toMessage_of_blank hblank⟩
  | false =>
    right
    rw [toMessage_of_nonBlank hblank]
    rcases ofType_cases r.messageType (.ofLists (r.references.map (·.map Uri.mk))) with
      ⟨kind, hknown, hkind⟩ | ⟨hunknown, herror⟩
    · rw [hkind]
      exact Or.inr ⟨rfl, ⟨kind, hknown⟩, _, rfl, describes_ofKind hknown⟩
    · rw [herror]
      exact Or.inl ⟨rfl, hunknown, rfl⟩

/-- Decoding succeeds with the message that the record describes, if its identifier is not blank. -/
theorem toMessage_eq_ok_iff :
    r.toMessage = .ok m ↔ Text.isBlank r.uri = false ∧ r.Describes m := by
  rcases r.toMessage_cases with ⟨hblank, h⟩ | ⟨-, hunknown, h⟩ | ⟨hblank, -, m', h, hm'⟩
  · rw [h, hblank]
    simp
  · rw [h]
    refine iff_of_false nofun ?_
    rintro ⟨-, hm⟩
    obtain ⟨name, hname, hknown⟩ := hm.kind
    rw [← isLocalName_iff.1 hname] at hknown
    exact hunknown _ hknown
  · rw [h, Except.ok.injEq]
    constructor
    · rintro rfl
      exact ⟨hblank, hm'⟩
    · rintro ⟨-, hm⟩
      exact hm'.unique hm

theorem toMessage_eq_blankUri_iff :
    r.toMessage = .error .blankUri ↔ Text.isBlank r.uri = true := by
  rcases r.toMessage_cases with ⟨hblank, h⟩ | ⟨hblank, -, h⟩ | ⟨hblank, -, m, h, -⟩ <;>
    simp [h, hblank]

theorem toMessage_eq_unsupportedType_iff {name : String} :
    r.toMessage = .error (.unsupportedType name) ↔
      Text.isBlank r.uri = false ∧ IsLocalName r.messageType name ∧
        ∀ kind, (name, kind) ∉ known := by
  rw [isLocalName_iff]
  rcases r.toMessage_cases with ⟨hblank, h⟩ | ⟨hblank, hunknown, h⟩ | ⟨-, ⟨kind, hknown⟩, m, h, -⟩
  · simp [h, hblank]
  · rw [h, Except.error.injEq, InvalidMessage.unsupportedType.injEq]
    constructor
    · rintro rfl
      exact ⟨hblank, rfl, hunknown⟩
    · exact fun hname => hname.2.1
  · rw [h]
    refine iff_of_false nofun ?_
    rintro ⟨-, rfl, hunknown⟩
    exact hunknown kind hknown

end

end WireRecord

end Parley
