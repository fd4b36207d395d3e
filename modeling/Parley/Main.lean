/-
The command line: `parley <connection> <messages file> [<server answer file>]` prints the report on
a recorded connection.
-/
import Parley.Report.Layout

open Parley

/-- The text of a file, or nothing if it cannot be read as text. -/
def readText (path : String) : IO (Option String) := do
  try
    return String.fromUTF8? (← IO.FS.readBinFile path)
  catch _ =>
    return none

def main (args : List String) : IO UInt32 := do
  let files ← (args.drop 1).take 2 |>.mapM fun path => return (path, ← readText path)
  let result := Report.run (fun path => (files.lookup path).join) args
  IO.print result.output
  if result.exitCode = 2 then
    IO.eprintln "usage: parley <connection-uri> <messages.json> [agreement-protocol.json]"
  return result.exitCode.toUInt32
