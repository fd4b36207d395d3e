/-
The report as JSON, with its fields in a fixed order, and the program that prints it.
-/
import Parley.Json.Identifier
import Parley.Json.Printer
import Parley.Report.Basic

namespace Parley

open Json

/-- A status as JSON: its eight flags. -/
def MessageStatus.toJson (s : MessageStatus) : Value :=
  .record (s.named.map fun (name, flag) => (name, .bool flag))

/-- The ends of a chain of copies as JSON. -/
def ChainEnds.toJson (r : ChainEnds) : Value :=
  .record [("headUri", r.first.toJson), ("stateUri", r.latest.toJson)]

/-- An agreement view as JSON: its seven sets and what they resolve to. -/
def AgreementView.toJson (s : AgreementView) : Value :=
  .record ((s.labelled.map fun (label, set) => (label, set.toJson)) ++
    [("refs", s.refs.toJson ChainEnds.toJson)])

/-- What the report says about a message as JSON. -/
def ReportEntry.toJson (e : ReportEntry) : Value :=
  .record [
    ("uri", e.uri.toJson),
    ("kind", .ofString e.kind.name),
    ("direction", .ofString e.direction.name),
    ("status", e.status.toJson),
    ("classification", .ofString e.classification.name),
    ("allowedActions", .ofStrings (e.permittedActions.map Action.name))]

/-- The report as JSON. -/
def Report.toJson (r : Report) : Value :=
  .record [
    ("connection", r.connection.toJson),
    ("state", .ofString r.state.name),
    ("messages", .array (r.messages.map ReportEntry.toJson)),
    ("local", r.localView.toJson),
    ("reconciled", .ofOption AgreementView.toJson r.reconciled),
    ("unresolved", .array (r.unresolved.map Uri.toJson))]

/-! ## The program -/

/-- What a run of the program leaves behind. -/
structure RunResult where
  exitCode : Nat
  output : String

/-- Runs the program on its arguments: a connection, the file of its messages and, if there is one,
the file of the server's answer. Further arguments are ignored. -/
def Report.run (readFile : String → Option String) : List String → RunResult
  | connection :: messages :: rest =>
    match ofFiles readFile ⟨connection⟩ messages rest.head? with
    | .ok report => ⟨0, report.toJson.pretty 0 ++ "\n"⟩
    | .error _ => ⟨1, ""⟩
  | _ => ⟨2, ""⟩

end Parley
