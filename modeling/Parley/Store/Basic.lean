/-
The messages of one connection. The store is append-only: once admitted, a message keeps its kind,
references and date, and only what is known about its delivery, its unread flag and a missing remote
name are filled in later. A message is found under its own name and under its remote name, and the
own name wins. Main statements: what admitting and editing a message do to a look-up.
-/
import Parley.Message.Basic
import Parley.UriMap

namespace Parley

/-! ## Another copy of a message -/

namespace Delivery

/-- What is known after hearing more: acknowledgements add up, and one clears a failure. -/
def merge (known heard : Delivery) : Delivery where
  receivedByOwn := known.receivedByOwn || heard.receivedByOwn
  receivedByRemote := known.receivedByRemote || heard.receivedByRemote
  failedToSend := known.failedToSend && !heard.acknowledged

end Delivery

namespace Message

/-- The stored message after another copy of it arrives. -/
def merge (stored copy : Message) : Message :=
  { stored with
    remoteUri := stored.remoteUri.or copy.remoteUri
    unread := stored.unread && copy.unread
    delivery := stored.delivery.merge copy.delivery }

end Message

/-! ## The store -/

/-- What admitting a message did. -/
inductive Insertion where
  /-- The message was not known before. -/
  | added
  /-- The message was known and the copy told something new. -/
  | updated
  /-- The message was known and the copy told nothing new. -/
  | unchanged
  deriving DecidableEq

/-- All known messages of one connection. -/
structure Store where
  /-- The messages under their local names. -/
  messages : UriMap Message
  /-- The local name for each remote name. -/
  remoteIndex : UriMap Uri
  /-- Grows with every change. -/
  version : Nat
  deriving DecidableEq

namespace Store

/-- The store without messages. -/
def empty : Store := ⟨∅, ∅, 0⟩

instance : Inhabited Store := ⟨empty⟩

/-- The index with the remote name of a message, if it has one. -/
def indexRemote (index : UriMap Uri) (remote : Option Uri) (uri : Uri) : UriMap Uri :=
  match remote with
  | some r => index.insert r uri
  | none => index

/-- The store with a message that it does not have yet. -/
def add (s : Store) (m : Message) : Store where
  messages := s.messages.insert m.uri m
  remoteIndex := indexRemote s.remoteIndex m.remoteUri m.uri
  version := s.version + 1

/-- The store with the message of a local name replaced by its next version, which may have gained a
remote name. -/
def replace (s : Store) (u : Uri) (old new : Message) : Store where
  messages := s.messages.insert u new
  remoteIndex :=
    if old.remoteUri = none then indexRemote s.remoteIndex new.remoteUri u else s.remoteIndex
  version := s.version + 1

/-- Admits a message: a new one as it is, another copy of a known one by merging it. -/
def insert (s : Store) (m : Message) : Insertion × Store :=
  match s.messages.get? m.uri with
  | none => (.added, s.add m)
  | some stored =>
    if stored.merge m = stored then (.unchanged, s)
    else (.updated, s.replace m.uri stored (stored.merge m))

/-- Admits messages one after another. -/
def insertAll (s : Store) (ms : List Message) : Store :=
  ms.foldl (fun s m => (s.insert m).2) s

/-- The store of a list of messages. -/
def ofList (ms : List Message) : Store :=
  empty.insertAll ms

/-! ## Looking up -/

/-- The message with a local name. -/
def get? (s : Store) (u : Uri) : Option Message :=
  s.messages.get? u

/-- The message with a local name, or else the one with it as remote name. -/
def find? (s : Store) (u : Uri) : Option Message :=
  (s.messages.get? u).or ((s.remoteIndex.get? u).bind s.messages.get?)

/-- Whether a message is known under either name. -/
def contains (s : Store) (u : Uri) : Bool :=
  (s.find? u).isSome

/-- The messages by local name. -/
def toList (s : Store) : List Message :=
  s.messages.values

/-- The messages by date, and by name within a date. -/
def chronological (s : Store) : List Message :=
  Message.chronological s.toList

/-- Whether any message is unread. -/
def anyUnread (s : Store) : Bool :=
  s.toList.any (·.unread)

/-- The number of messages. -/
def size (s : Store) : Nat :=
  s.messages.size

/-- No message at all. -/
def isEmpty (s : Store) : Bool :=
  s.messages.isEmpty

/-! ## Editing

Each edit counts as a change, and says whether the store has the message. -/

/-- The store with the message of a local name changed. -/
def edit (s : Store) (u : Uri) (f : Message → Message) : Bool × Store :=
  match s.messages.get? u with
  | some m => (true, s.replace u m (f m))
  | none => (false, s)

/-- Records that the own node accepted a sent message, and the remote name it told. -/
def acknowledge (s : Store) (u : Uri) (remote : Option Uri) : Bool × Store :=
  s.edit u fun m =>
    { m with
      remoteUri := m.remoteUri.or remote
      delivery := { m.delivery with receivedByOwn := true, failedToSend := false } }

/-- Records that the counterpart's node received a sent message. -/
def confirmDelivery (s : Store) (u : Uri) : Bool × Store :=
  s.edit u fun m => { m with delivery := { m.delivery with receivedByRemote := true } }

/-- Records that sending a message failed. -/
def recordFailure (s : Store) (u : Uri) : Bool × Store :=
  s.edit u fun m => { m with delivery := { m.delivery with failedToSend := true } }

/-- Records that a message was read. -/
def clearUnread (s : Store) (u : Uri) : Bool × Store :=
  s.edit u fun m => { m with unread := false }

/-! ## What each operation does to a look-up -/

@[simp] theorem get?_empty (u : Uri) : empty.get? u = none := rfl

/-- Admitting a message adds it or merges it, and leaves the others. -/
theorem get?_insert (s : Store) (m : Message) (u : Uri) :
    (s.insert m).2.get? u =
      if u = m.uri then some ((s.get? u).elim m fun stored => stored.merge m) else s.get? u := by
  unfold insert get?
  cases hm : s.messages.get? m.uri with
  | none =>
    simp only [add, UriMap.get?_insert]
    split
    · rename_i e
      subst e
      simp [hm]
    · rfl
  | some stored =>
    by_cases heq : stored.merge m = stored
    · simp only [heq, if_true]
      split
      · rename_i e
        subst e
        simp [hm, heq]
      · rfl
    · simp only [heq, if_false, replace, UriMap.get?_insert]
      split
      · rename_i e
        subst e
        simp [hm]
      · rfl

/-- An edit changes the message of its local name, and leaves the others. -/
theorem get?_edit (s : Store) (u v : Uri) (f : Message → Message) :
    (s.edit u f).2.get? v = if v = u then (s.get? v).map f else s.get? v := by
  unfold edit get?
  cases hm : s.messages.get? u with
  | none =>
    by_cases e : v = u
    · subst e
      simp [hm]
    · simp [e]
  | some m =>
    by_cases e : v = u
    · subst e
      simp [hm, replace]
    · simp [e, replace]

end Store

end Parley
