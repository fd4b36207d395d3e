/-
A page of wire records. A record is usable if its identifier is not blank and its type has a known
local name; decoding answers the message it describes, and otherwise says which of the two is amiss.
A text is a page if it writes an array of values that spell records. Main statement: what decoding
answers for every record, and that reading a page answers the messages of its usable records in the
order of the array, and fails for the texts that are no page and for no others.
-/
import Mathlib.Data.List.Forall2
import Parley.Proofs.Json.Spelling
import Parley.Proofs.Message.Decoding
import Parley.Proofs.Message.Shape

namespace Parley

open Json MessageKind

/-! ## Usable records -/

namespace WireRecord

/-- A record that describes a message. -/
structure IsUsable (r : WireRecord) : Prop where
  uri : Text.isBlank r.uri = false
  type : ∃ name kind, IsLocalName r.messageType name ∧ (name, kind) ∈ known

theorem isUsable_iff {r : WireRecord} : r.IsUsable ↔ ∃ m, r.toMessage = .ok m := by
  constructor
  · rintro ⟨huri, name, kind, hname, hknown⟩
    obtain rfl := isLocalName_iff.1 hname
    rcases r.toMessage_cases with ⟨hblank, -⟩ | ⟨-, hunknown, -⟩ | ⟨-, -, m, hm, -⟩
    · rw [huri] at hblank
      cases hblank
    · exact absurd hknown (hunknown kind)
    · exact ⟨m, hm⟩
  · rintro ⟨m, hm⟩
    obtain ⟨huri, hdescribes⟩ := toMessage_eq_ok_iff.1 hm
    obtain ⟨name, hname, hknown⟩ := hdescribes.kind
    exact ⟨huri, name, _, hname, hknown⟩

end WireRecord

/-! ## Pages -/

namespace Message

/-- The text of a page with the given records, in order. -/
def IsPage (text : String) (rs : List WireRecord) : Prop :=
  ∃ vs, (Value.array vs).WrittenAs text ∧ List.Forall₂ WireRecord.SpelledBy rs vs

/-- The messages that the usable records of a page describe, in order. -/
inductive OfRecords : List WireRecord → List Message → Prop
  | nil : OfRecords [] []
  | usable {r : WireRecord} {m : Message} {rs : List WireRecord} {ms : List Message}
      (hr : r.IsUsable) (hm : r.Describes m) (h : OfRecords rs ms) : OfRecords (r :: rs) (m :: ms)
  | skipped {r : WireRecord} {rs : List WireRecord} {ms : List Message} (hr : ¬ r.IsUsable)
      (h : OfRecords rs ms) : OfRecords (r :: rs) ms

section

variable {r : WireRecord} {rs : List WireRecord} {ms : List Message}

theorem decodable_usable {m : Message} (hr : r.IsUsable) (hm : r.Describes m) :
    decodable (r :: rs) = m :: decodable rs := by
  have hok : r.toMessage.toOption = some m := by
    rw [WireRecord.toMessage_eq_ok_iff.2 ⟨hr.uri, hm⟩]
    rfl
  exact List.filterMap_cons_some hok

theorem decodable_skipped (hr : ¬ r.IsUsable) : decodable (r :: rs) = decodable rs := by
  have herror : r.toMessage.toOption = none := by
    cases h : r.toMessage with
    | error e => rfl
    | ok m => exact absurd (WireRecord.isUsable_iff.2 ⟨m, h⟩) hr
  exact List.filterMap_cons_none herror

theorem ofRecords_decodable (rs : List WireRecord) : OfRecords rs (decodable rs) := by
  induction rs with
  | nil => exact .nil
  | cons r rs ih =>
    by_cases hr : r.IsUsable
    · obtain ⟨m, hm⟩ := WireRecord.isUsable_iff.1 hr
      have hdescribes := (WireRecord.toMessage_eq_ok_iff.1 hm).2
      rw [decodable_usable hr hdescribes]
      exact .usable hr hdescribes ih
    · rw [decodable_skipped hr]
      exact .skipped hr ih

theorem ofRecords_iff : OfRecords rs ms ↔ decodable rs = ms := by
  constructor
  · intro h
    induction h with
    | nil => rfl
    | usable hr hm _ ih => rw [decodable_usable hr hm, ih]
    | skipped hr _ ih => rw [decodable_skipped hr, ih]
  · rintro rfl
    exact ofRecords_decodable rs

end

/-! ## Reading a page -/

/-- Values are read as records exactly if they spell these in order. -/
theorem map_ofJson?_iff {vs : List Value} {rs : List WireRecord} :
    vs.map WireRecord.ofJson? = rs.map some ↔ List.Forall₂ WireRecord.SpelledBy rs vs := by
  induction vs generalizing rs with
  | nil =>
    cases rs with
    | nil => simp
    | cons r rs => exact iff_of_false nofun nofun
  | cons v vs ih =>
    cases rs with
    | nil => exact iff_of_false nofun nofun
    | cons r rs => simp [ih, WireRecord.ofJson?_eq_some_iff]

section

variable {text : String} {rs : List WireRecord}

theorem isPage_iff :
    IsPage text rs ↔ ∃ v, parse? text = some v ∧ v.list? WireRecord.ofJson? = some rs := by
  simp only [IsPage, parse?_eq_some_iff, Value.list?_eq_some_iff, map_ofJson?_iff]
  constructor
  · rintro ⟨vs, htext, hvs⟩
    exact ⟨_, htext, vs, rfl, hvs⟩
  · rintro ⟨_, htext, vs, rfl, hvs⟩
    exact ⟨vs, htext, hvs⟩

theorem parsePage_of_isPage (h : IsPage text rs) : parsePage text = .ok (decodable rs) := by
  obtain ⟨v, htext, hrecords⟩ := isPage_iff.1 h
  simp only [parsePage, htext, hrecords]

/-- A text is a page, and then of its records only, or it is refused. -/
theorem parsePage_cases (text : String) :
    (∃ rs, IsPage text rs ∧ parsePage text = .ok (decodable rs)) ∨
    (∀ rs, ¬ IsPage text rs) ∧ parsePage text = .error .malformed := by
  by_cases hpage : ∃ rs, IsPage text rs
  · obtain ⟨rs, hrs⟩ := hpage
    exact Or.inl ⟨rs, hrs, parsePage_of_isPage hrs⟩
  · have hno : ∀ rs, ¬ IsPage text rs := not_exists.1 hpage
    refine Or.inr ⟨hno, ?_⟩
    unfold parsePage
    split
    · rfl
    · rename_i v htext
      split
      · rfl
      · rename_i rs hrecords
        exact absurd (isPage_iff.2 ⟨v, htext, hrecords⟩) (hno rs)

end

/-- Every record decodes to the message it describes, unless its identifier is blank or else its
type is not known. A page answers the messages of its usable records in order, and a text that is no
page is refused. -/
theorem decoding_accepts_usable_records :
    (∀ r : WireRecord,
      (r.toMessage = .error .blankUri ↔ Text.isBlank r.uri = true) ∧
      (∀ name, r.toMessage = .error (.unsupportedType name) ↔
        Text.isBlank r.uri = false ∧ IsLocalName r.messageType name ∧
          ∀ kind, (name, kind) ∉ known) ∧
      ((∃ m, r.toMessage = .ok m) ↔ r.IsUsable) ∧
      (∀ m, r.toMessage = .ok m ↔ r.IsUsable ∧ r.Describes m) ∧
      ∀ b, { r with hasReferences := b }.toMessage = r.toMessage) ∧
    ∀ text : String,
      (∀ e, parsePage text = .error e ↔ e = .malformed ∧ ∀ rs, ¬ IsPage text rs) ∧
      ∀ ms, parsePage text = .ok ms ↔ ∃ rs, IsPage text rs ∧ OfRecords rs ms := by
  refine ⟨fun r => ⟨WireRecord.toMessage_eq_blankUri_iff,
    fun name => WireRecord.toMessage_eq_unsupportedType_iff, WireRecord.isUsable_iff.symm,
    fun m => ?_, fun b => rfl⟩, fun text => ⟨fun e => ?_, fun ms => ?_⟩⟩
  · constructor
    · intro hm
      exact ⟨WireRecord.isUsable_iff.2 ⟨m, hm⟩, (WireRecord.toMessage_eq_ok_iff.1 hm).2⟩
    · rintro ⟨hr, hm⟩
      exact WireRecord.toMessage_eq_ok_iff.2 ⟨hr.uri, hm⟩
  · rcases parsePage_cases text with ⟨rs, hrs, h⟩ | ⟨hno, h⟩
    · rw [h]
      refine iff_of_false nofun ?_
      rintro ⟨-, hno⟩
      exact hno rs hrs
    · rw [h, Except.error.injEq, eq_comm]
      exact ⟨fun e => ⟨e, hno⟩, And.left⟩
  · constructor
    · intro h
      rcases parsePage_cases text with ⟨rs, hrs, hok⟩ | ⟨-, herror⟩
      · rw [hok] at h
        cases h
        exact ⟨rs, hrs, ofRecords_decodable rs⟩
      · rw [herror] at h
        cases h
    · rintro ⟨rs, hrs, hms⟩
      rw [parsePage_of_isPage hrs, ofRecords_iff.1 hms]

/-! ## A page of every sort of record -/

/-- The lines of a page of four records. The first is a chat message that refers to others under the
six kinds, with blank and repeated entries; the identifier of the second is blank and the type of
the third not known; the last gives the values of its fields in order. -/
def mixedLines : List String :=
  ["[\x7b\"messageType\":\"won#ConnectionMessage\",",
    "\"uri\":\"wm:\\/1\\ud83d\\ude00\",",
    "\"remoteUri\":\"\\t\",\"outgoingMessage\":true,",
    "\"references\":\x7b\"proposes\":[\"wm:p\",",
    "\"\\u00A0\",\"wm:p\"],\"claims\":[\"wm:b\",",
    "\"wm:a\"],\"accepts\":[\"\"],\"rejects\":null,",
    "\"retracts\":[\"wm:r\"],\"proposesToCancel\":",
    "[\"wm:c\"]\x7d,\"mood\":[-1.5e3],",
    "\"senderSocketUri\":\"wm:s\",",
    "\"date\":1700000000000\x7d,\n",
    "\x7b\"uri\":\" \\u2003\",",
    "\"messageType\":\"won:Payment\"\x7d,",
    "\x7b\"uri\":\"wm:3\",",
    "\"messageType\":\"CloseMessage/Payment\"\x7d,",
    "[\"wm:4\",\"wm:5\",\"won#a:CloseMessage\",",
    "false,true,true,true,[[\"wm:p\"]],null,",
    "\"wm:t\",7,true,false,true,true]]"]

/-- A page of every sort of record. -/
def mixedPage : String :=
  String.join mixedLines

/-- A page whose second record has no type. -/
def untypedPage : String :=
  "[[\"wm:4\",\"wm:5\",\"CloseMessage\"],[\"wm:6\"]]"

/-- A record of which the identifier and the type are given only. -/
def bareRecord (uri type : String) : WireRecord where
  uri := uri
  remoteUri := none
  messageType := type
  outgoingMessage := false
  systemMessage := false
  hasContent := false
  hasReferences := false
  references := ⟨[], [], [], [], [], []⟩
  senderSocketUri := none
  targetSocketUri := none
  date := 0
  unread := false
  receivedByOwn := false
  receivedByRemote := false
  failedToSend := false

/-- The first record of the mixed page. -/
def chatRecord : WireRecord :=
  { bareRecord "wm:/1😀" "won#ConnectionMessage" with
    remoteUri := some "\t"
    outgoingMessage := true
    references := ⟨["wm:p", "\u00a0", "wm:p"], ["wm:b", "wm:a"], [""], [], ["wm:r"], ["wm:c"]⟩
    senderSocketUri := some "wm:s"
    date := 1700000000000 }

/-- The last record of the mixed page. -/
def closeRecord : WireRecord where
  uri := "wm:4"
  remoteUri := some "wm:5"
  messageType := "won#a:CloseMessage"
  outgoingMessage := false
  systemMessage := true
  hasContent := true
  hasReferences := true
  references := ⟨["wm:p"], [], [], [], [], []⟩
  senderSocketUri := none
  targetSocketUri := some "wm:t"
  date := 7
  unread := true
  receivedByOwn := false
  receivedByRemote := true
  failedToSend := true

/-- The records of the mixed page. -/
def mixedRecords : List WireRecord :=
  [chatRecord, bareRecord " \u2003" "won:Payment", bareRecord "wm:3" "CloseMessage/Payment",
    closeRecord]

/-- The message of the chat record. -/
def chatMessage : Message where
  uri := ⟨"wm:/1😀"⟩
  remoteUri := none
  kind := .chat ⟨.ofList [⟨"wm:p"⟩], .ofList [⟨"wm:a"⟩, ⟨"wm:b"⟩], ∅, ∅, .ofList [⟨"wm:r"⟩],
    .ofList [⟨"wm:c"⟩]⟩
  direction := .outgoing
  hasContent := false
  systemMessage := false
  senderSocket := some ⟨"wm:s"⟩
  targetSocket := none
  date := 1700000000000
  unread := false
  delivery := ⟨false, false, false⟩

/-- The message of the close record. -/
def closeMessage : Message where
  uri := ⟨"wm:4"⟩
  remoteUri := some ⟨"wm:5"⟩
  kind := .close
  direction := .incoming
  hasContent := true
  systemMessage := true
  senderSocket := none
  targetSocket := some ⟨"wm:t"⟩
  date := 7
  unread := true
  delivery := ⟨false, true, true⟩

theorem isPage_mixedPage : IsPage mixedPage mixedRecords := by
  have hread : ((parse? mixedPage).bind fun v => v.list? WireRecord.ofJson?) =
      some mixedRecords := by
    -- the characters are listed line by line: those of a long literal take too long to evaluate
    rw [parse?, mixedPage, String.toList_join]
    decide +kernel
  exact isPage_iff.2 (Option.bind_eq_some_iff.1 hread)

/-- The page with every sort of record answers its two usable ones; the other page is refused. -/
theorem decoding_accepts_usable_records_mixedPage :
    (IsPage mixedPage mixedRecords ∧ OfRecords mixedRecords [chatMessage, closeMessage] ∧
      parsePage mixedPage = .ok [chatMessage, closeMessage]) ∧
    (bareRecord " \u2003" "won:Payment").toMessage = .error .blankUri ∧
    (bareRecord "wm:3" "CloseMessage/Payment").toMessage = .error (.unsupportedType "Payment") ∧
    parsePage untypedPage = .error .malformed ∧ ∀ rs, ¬ IsPage untypedPage rs := by
  obtain ⟨hrecords, hpages⟩ := decoding_accepts_usable_records
  have hchat := ((hrecords chatRecord).2.2.2.1 chatMessage).1 (by decide +kernel)
  have hclose := ((hrecords closeRecord).2.2.2.1 closeMessage).1 (by decide +kernel)
  have hblank := (hrecords (bareRecord " \u2003" "won:Payment")).1.2 (by decide +kernel)
  have hforeign : (bareRecord "wm:3" "CloseMessage/Payment").toMessage =
      .error (.unsupportedType "Payment") := by
    decide +kernel
  have hunusable {r : WireRecord} {e : InvalidMessage} (he : r.toMessage = .error e) :
      ¬ r.IsUsable := fun hr => by
    obtain ⟨m, hm⟩ := (hrecords r).2.2.1.2 hr
    cases he.symm.trans hm
  have hmessages : OfRecords mixedRecords [chatMessage, closeMessage] :=
    .usable hchat.1 hchat.2 (.skipped (hunusable hblank) (.skipped (hunusable hforeign)
      (.usable hclose.1 hclose.2 .nil)))
  have hmixed := ((hpages mixedPage).2 _).2 ⟨_, isPage_mixedPage, hmessages⟩
  have huntyped : parsePage untypedPage = .error .malformed := by
    decide +kernel
  exact ⟨⟨isPage_mixedPage, hmessages, hmixed⟩, hblank, hforeign, huntyped,
    (((hpages untypedPage).1 _).1 huntyped).2⟩

end Message

end Parley
