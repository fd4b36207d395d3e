/-
Calls of the client as data. A call is a tree of steps: it takes a stamp for a new event, it reads
and changes the state in one atomic step, or it asks the node and goes on with the answer. The state
is never held while the node is asked, so other calls may run in between; running a tree to its next
question is one stretch without interleaving.
-/
import Parley.Message.Dispatch
import Parley.Session.Settings
import Parley.Session.Basic

namespace Parley

/-- A question to the node. -/
inductive Request where
  | send (connection : Uri) (dispatch : Dispatch)
  | fetchAtom (uri : Uri)
  | fetchContainer (atom : Uri)
  | fetchConnection (uri : Uri)
  /-- A page of the messages of a connection, the first one or the one at a cursor. -/
  | fetchMessages (connection : Uri) (cursor : Option String)
  /-- A single event, as an atom sees it. -/
  | fetchMessage (requester uri : Uri)
  /-- The owner's agreement data at an address. -/
  | fetchProtocolSets (url : String)

/-- What an answer holds when there is one. -/
def Request.Answer : Request → Type
  | .send _ _ => Acknowledgement
  | .fetchAtom _ => AtomDocument
  | .fetchContainer _ => List ConnectionDocument
  | .fetchConnection _ => ConnectionDocument
  | .fetchMessages _ _ => Page
  | .fetchMessage _ _ => Message
  | .fetchProtocolSets _ => ServerSets

/-- A call of the client. -/
inductive Program (α : Type) where
  | done (a : α)
  /-- Takes a stamp for a new event. -/
  | stamp (next : Stamp → Program α)
  /-- Changes the state in one step, and goes on with the state before. -/
  | atomic (update : Session → Session) (next : Session → Program α)
  /-- Asks the node. -/
  | ask (r : Request) (next : Except NodeFailure r.Answer → Program α)

namespace Program

variable {α β : Type}

/-- The second call on the result of the first. -/
def bind : Program α → (α → Program β) → Program β
  | .done a, f => f a
  | .stamp next, f => .stamp fun s => (next s).bind f
  | .atomic update next, f => .atomic update fun s => (next s).bind f
  | .ask r next, f => .ask r fun answer => (next answer).bind f

instance : Monad Program where
  pure := .done
  bind := bind

/-- Reads and changes the state in one step. -/
def transact (f : Session → α × Session) : Program α :=
  .atomic (fun s => (f s).2) fun s => .done (f s).1

/-- Reads the state. -/
def read (f : Session → α) : Program α :=
  .atomic id fun s => .done (f s)

/-- Folds an event into the state. -/
def apply (e : Event) : Program Unit :=
  .atomic (fun s => s.apply e) fun _ => .done ()

/-- Asks the node one question. -/
def request (r : Request) : Program (Except NodeFailure r.Answer) :=
  .ask r .done

/-- A failed fetch of an agreement event or of agreement data. -/
def agreementFailure (u : Uri) (e : NodeFailure) : AgreementError :=
  .fetch u e.status e.text

/-- The inquiry asked of the node. -/
def ofInquiry (settings : Settings) : Inquiry α → Program α
  | .done a => .done a
  | .ask (.sets connection) next =>
    .ask (.fetchProtocolSets (settings.agreementUrl connection)) fun
      | .ok (sets : ServerSets) => ofInquiry settings (next (.ok sets))
      | .error e => ofInquiry settings (next (.error (agreementFailure connection e)))
  | .ask (.event requester u) next =>
    .ask (.fetchMessage requester u) fun
      | .ok (m : Message) => ofInquiry settings (next (.ok m))
      | .error e => ofInquiry settings (next (.error (agreementFailure u e)))

/-- Where a call stands after a stretch. -/
inductive Standing (α : Type) where
  | finished (a : α)
  | waiting (r : Request) (next : Except NodeFailure r.Answer → Program α)

/-- Runs a call to its next question or to its end, with the stamp for a new event. -/
def advance (stamp : Stamp) : Program α → Session → Standing α × Session
  | .done a, s => (.finished a, s)
  | .stamp next, s => (next stamp).advance stamp s
  | .atomic update next, s => (next s).advance stamp (update s)
  | .ask r next, s => (.waiting r next, s)

end Program

end Parley
