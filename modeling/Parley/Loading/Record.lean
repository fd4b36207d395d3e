/-
Load records: where each remote resource is in its fetch cycle, what the node said about the last
fetch, and, for a connection, the state of its message pages and of the data sets fetched
separately.
-/
import Parley.UriMap

namespace Parley.Loading

/-- Where a resource is in its fetch cycle. -/
inductive Phase where
  /-- Known to exist, and nobody asked for it. -/
  | unrequested
  /-- To be fetched when convenient. -/
  | toLoad
  /-- A fetch is in flight. -/
  | loading
  | loaded
  | failedToLoad
  deriving DecidableEq, Inhabited

/-- The name of a phase. -/
def Phase.name : Phase → String
  | .unrequested => "unrequested"
  | .toLoad => "toLoad"
  | .loading => "loading"
  | .loaded => "loaded"
  | .failedToLoad => "failedToLoad"

/-- What the node said about a fetch. -/
structure FetchAnswer where
  code : Option Nat
  text : String
  deriving DecidableEq

/-- The code of a deleted resource. -/
def goneCode : Nat := 410

/-- Whether the node said that the resource was deleted. -/
def FetchAnswer.saysGone (s : FetchAnswer) : Bool :=
  s.code = some goneCode

/-- The load record of one resource. -/
structure LoadRecord where
  phase : Phase
  status : Option FetchAnswer
  deriving DecidableEq

namespace LoadRecord

/-- A resource that is known and nothing else. -/
def fresh : LoadRecord := ⟨.unrequested, none⟩

end LoadRecord

/-- The record of an atom. -/
structure AtomRecord where
  load : LoadRecord
  /-- An edit of the atom is being submitted. -/
  updating : Bool
  deriving DecidableEq

/-- The record of an atom that is known and nothing else. -/
def AtomRecord.fresh : AtomRecord := ⟨.fresh, false⟩

/-- The data sets of a connection that are fetched separately. -/
inductive DataSet where
  | petriNetData
  | agreementData
  | agreementDataset
  deriving DecidableEq, Inhabited

/-- The name of a data set. -/
def DataSet.name : DataSet → String
  | .petriNetData => "petriNetData"
  | .agreementData => "agreementData"
  | .agreementDataset => "agreementDataset"

/-- The record of a data set. -/
structure DataSetRecord where
  loading : Bool
  loaded : Bool
  /-- The failures since the last success. -/
  failCount : Nat
  /-- The loaded copy is outdated. -/
  dirty : Bool
  deriving DecidableEq

/-- The record of a data set that nobody asked for. -/
def DataSetRecord.fresh : DataSetRecord := ⟨false, false, 0, false⟩

/-- The record of a connection. -/
structure ConnectionRecord where
  load : LoadRecord
  /-- The atom owning the connection, once it is known. -/
  atom : Option Uri
  /-- A message page is being fetched. -/
  loadingMessages : Bool
  /-- Where the next page of older messages starts. -/
  nextPage : Option String
  petriNetData : DataSetRecord
  agreementData : DataSetRecord
  agreementDataset : DataSetRecord
  /-- The messages whose last fetch failed. -/
  failedMessages : UriMap FetchAnswer
  deriving DecidableEq

namespace ConnectionRecord

/-- The record of a connection that is known and nothing else. -/
def fresh : ConnectionRecord :=
  ⟨.fresh, none, false, none, .fresh, .fresh, .fresh, ∅⟩

/-- The record of a data set. -/
def dataSet (c : ConnectionRecord) : DataSet → DataSetRecord
  | .petriNetData => c.petriNetData
  | .agreementData => c.agreementData
  | .agreementDataset => c.agreementDataset

/-- The connection with the record of a data set replaced. -/
def setDataSet (c : ConnectionRecord) (r : DataSetRecord) : DataSet → ConnectionRecord
  | .petriNetData => { c with petriNetData := r }
  | .agreementData => { c with agreementData := r }
  | .agreementDataset => { c with agreementDataset := r }

@[simp] theorem dataSet_setDataSet (c : ConnectionRecord) (r : DataSetRecord) (s s' : DataSet) :
    (c.setDataSet r s).dataSet s' = if s' = s then r else c.dataSet s' := by
  cases s <;> cases s' <;> rfl

end ConnectionRecord

/-- The kinds of remote resources with a load record of their own. -/
inductive ResourceKind where
  | atom
  /-- The list of the connections of an atom, under the atom's identifier. -/
  | container
  | connection
  /-- Any other document. -/
  | external
  deriving DecidableEq, Inhabited

/-- The name of a kind of resources. -/
def ResourceKind.name : ResourceKind → String
  | .atom => "atom"
  | .container => "connectionContainer"
  | .connection => "connection"
  | .external => "externalData"

end Parley.Loading
