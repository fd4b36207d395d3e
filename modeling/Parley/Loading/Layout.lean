/-
Load records as JSON, with their fields in a fixed order. The record of an atom or of a connection
shows its phase and status among its own fields.
-/
import Parley.Json.Identifier
import Parley.Loading.Tracker

namespace Parley.Loading

open Json

/-- What the node said about a fetch, as JSON. -/
def FetchAnswer.toJson (s : FetchAnswer) : Value :=
  .record [("code", .ofOption .ofNat s.code), ("message", .ofString s.text)]

/-- The fields of a load record. -/
def LoadRecord.fields (l : LoadRecord) : List (String × Value) :=
  [("phase", .ofString l.phase.name), ("status", .ofOption FetchAnswer.toJson l.status)]

/-- A load record as JSON. -/
def LoadRecord.toJson (l : LoadRecord) : Value :=
  .record l.fields

/-- The record of an atom as JSON. -/
def AtomRecord.toJson (a : AtomRecord) : Value :=
  .record (a.load.fields ++ [("processingUpdate", .bool a.updating)])

/-- The record of a data set as JSON. -/
def DataSetRecord.toJson (s : DataSetRecord) : Value :=
  .record [("loading", .bool s.loading), ("loaded", .bool s.loaded),
    ("failCount", .ofNat s.failCount), ("dirty", .bool s.dirty)]

/-- The record of a connection as JSON. -/
def ConnectionRecord.toJson (c : ConnectionRecord) : Value :=
  .record (c.load.fields ++ [
    ("atom", .ofOption Uri.toJson c.atom),
    ("loadingMessages", .bool c.loadingMessages),
    ("nextPage", .ofOption .ofString c.nextPage),
    ("petriNetData", c.petriNetData.toJson),
    ("agreementData", c.agreementData.toJson),
    ("agreementDataset", c.agreementDataset.toJson),
    ("failedMessages", c.failedMessages.toJson FetchAnswer.toJson)])

/-- The load records of every known resource as JSON. -/
def Tracker.toJson (t : Tracker) : Value :=
  .record [
    ("atoms", t.atoms.toJson AtomRecord.toJson),
    ("connectionContainers", t.containers.toJson LoadRecord.toJson),
    ("connections", t.connections.toJson ConnectionRecord.toJson),
    ("externalData", t.external.toJson LoadRecord.toJson),
    ("version", .ofNat t.version)]

end Parley.Loading
