/-
Messages on the wire. A wire record has the fields of a message in a looser shape; decoding it
either gives a well-formed message or says why it describes none. A page of records keeps those that
describe a message, in their order.
-/
import Parley.Error
import Parley.Json.Identifier
import Parley.Json.Reader
import Parley.Json.Record

namespace Parley

/-- A message as it appears on the wire. -/
structure WireRecord where
  uri : String
  remoteUri : Option String
  messageType : String
  outgoingMessage : Bool
  systemMessage : Bool
  hasContent : Bool
  hasReferences : Bool
  references : ByKind (List String)
  senderSocketUri : Option String
  targetSocketUri : Option String
  date : Nat
  unread : Bool
  receivedByOwn : Bool
  receivedByRemote : Bool
  failedToSend : Bool
  deriving DecidableEq

/-! ## From JSON -/

namespace WireRecord

open Json

/-- Dates are unsigned 64-bit numbers. -/
def dateBound : Nat := Nat.pow 2 64

/-- The field names of a wire record, in order. -/
def fieldNames : List String :=
  ["uri", "remoteUri", "messageType", "outgoingMessage", "systemMessage", "hasContent",
    "hasReferences", "references", "senderSocketUri", "targetSocketUri", "date", "unread",
    "isReceivedByOwn", "isReceivedByRemote", "failedToSend"]

/-- No reference of any kind. -/
def noReferences : ByKind (List String) :=
  ByKind.ofFn fun _ => []

/-- Reads the references of a record: one optional list per kind. -/
def readReferences? (v : Value) : Option (ByKind (List String)) := do
  let r ← Record.read? (ReferenceKind.all.map ReferenceKind.name) v
  let list (k : ReferenceKind) : Option (List String) := do
    let l ← r.optional? k.name (Value.list? Value.text?)
    return l.getD []
  return {
    proposes := ← list .proposes
    claims := ← list .claims
    accepts := ← list .accepts
    rejects := ← list .rejects
    retracts := ← list .retracts
    proposesToCancel := ← list .proposesToCancel }

/-- Reads a wire record; only the identifier and the type have to be given. -/
def ofJson? (v : Value) : Option WireRecord := do
  let r ← Record.read? fieldNames v
  let flag (name : String) : Option Bool := r.withDefault? name Value.bool? false
  let text (name : String) : Option (Option String) := r.optional? name Value.text?
  return {
    uri := ← r.required? "uri" Value.text?
    remoteUri := ← text "remoteUri"
    messageType := ← r.required? "messageType" Value.text?
    outgoingMessage := ← flag "outgoingMessage"
    systemMessage := ← flag "systemMessage"
    hasContent := ← flag "hasContent"
    hasReferences := ← flag "hasReferences"
    references := ← r.withDefault? "references" readReferences? noReferences
    senderSocketUri := ← text "senderSocketUri"
    targetSocketUri := ← text "targetSocketUri"
    date := ← r.withDefault? "date" (Value.natBelow? dateBound) 0
    unread := ← flag "unread"
    receivedByOwn := ← flag "isReceivedByOwn"
    receivedByRemote := ← flag "isReceivedByRemote"
    failedToSend := ← flag "failedToSend" }

end WireRecord

/-- Reads references that are written as sets, one per kind; a set that is not given is empty. -/
def References.ofJson? (v : Json.Value) : Option References := do
  let r ← Json.Record.read? (ReferenceKind.all.map ReferenceKind.name) v
  let set (k : ReferenceKind) : Option UriSet := r.withDefault? k.name UriSet.ofJson? ∅
  return {
    proposes := ← set .proposes
    claims := ← set .claims
    accepts := ← set .accepts
    rejects := ← set .rejects
    retracts := ← set .retracts
    proposesToCancel := ← set .proposesToCancel }

/-! ## To a message -/

namespace MessageKind

/-- The significant part of a message type: what follows its last `#`, `:` or `/`. -/
def localName (type : String) : String :=
  String.ofList (type.toList.reverse.takeWhile fun c => c != '#' && c != ':' && c != '/').reverse

/-- The kind of a local name, where a chat message carries the references given. -/
def ofLocalName? (references : References) (name : String) : Option MessageKind :=
  match name with
  | "ConnectMessage" => some .connect
  | "OpenMessage" => some .opening
  | "ConnectionMessage" => some (.chat references)
  | "CloseMessage" => some .close
  | "FeedbackMessage" => some .feedback
  | "AtomHintMessage" => some .atomHint
  | "HintMessage" => some .atomHint
  | "SocketHintMessage" => some .socketHint
  | "ChangeNotificationMessage" => some .changeNotification
  | "SuccessResponse" => some (.response true)
  | "FailureResponse" => some (.response false)
  | _ => none

/-- The kind of a message type; a type whose local name is none of the known ones is refused. -/
def ofType (type : String) (references : References) : Except InvalidMessage MessageKind :=
  match ofLocalName? references (localName type) with
  | some kind => .ok kind
  | none => .error (.unsupportedType (localName type))

end MessageKind

namespace WireRecord

/-- The message a record describes. A blank identifier is reported before an unknown type; blank
optional identifiers and blank references count as absent. -/
def toMessage (r : WireRecord) : Except InvalidMessage Message :=
  let uri : Uri := ⟨r.uri⟩
  if uri.isBlank then .error .blankUri
  else
    match MessageKind.ofType r.messageType (.ofLists (r.references.map (·.map Uri.mk))) with
    | .error e => .error e
    | .ok kind =>
      .ok {
        uri := uri
        remoteUri := r.remoteUri.bind fun s => Uri.nonBlank? ⟨s⟩
        kind := kind
        direction := .ofOutgoing r.outgoingMessage
        hasContent := r.hasContent
        systemMessage := r.systemMessage
        senderSocket := r.senderSocketUri.bind fun s => Uri.nonBlank? ⟨s⟩
        targetSocket := r.targetSocketUri.bind fun s => Uri.nonBlank? ⟨s⟩
        date := r.date
        unread := r.unread
        delivery := ⟨r.receivedByOwn, r.receivedByRemote, r.failedToSend⟩ }

end WireRecord

namespace Message

/-- The message a JSON value describes. -/
def ofJson (v : Json.Value) : Except NegotiationError Message :=
  match WireRecord.ofJson? v with
  | none => .error .malformed
  | some r =>
    match r.toMessage with
    | .ok m => .ok m
    | .error e => .error (.invalidMessage e)

/-- The message a JSON text describes. -/
def parse (text : String) : Except NegotiationError Message :=
  match Json.parse? text with
  | none => .error .malformed
  | some v => ofJson v

/-- The messages that a list of records describes; records that describe none are skipped. -/
def decodable (rs : List WireRecord) : List Message :=
  rs.filterMap fun r => r.toMessage.toOption

/-- The messages of a page: a JSON array of wire records. A record that describes no message is
skipped, and a text of any other shape is refused as a whole. -/
def parsePage (text : String) : Except NegotiationError (List Message) :=
  match Json.parse? text with
  | none => .error .malformed
  | some v =>
    match v.list? WireRecord.ofJson? with
    | none => .error .malformed
    | some rs => .ok (decodable rs)

end Message

end Parley
