import Paywatch.Engine.Launch

/-!
Looks at the settings that the command line names and reports what an engine would watch.
-/

namespace Paywatch.Launch

/-- The text of a file, if it can be read. -/
def readText? (path : String) : IO (Option String) := do
  try
    return some (← IO.FS.readFile path)
  catch _ =>
    return none

/-- Prints the report, or the reason why there is none; gives the exit code. -/
def printReport : Except String (List String) → IO UInt32
  | .ok lines => do
    lines.forM fun line => IO.println line
    return 0
  | .error reason => do
    IO.eprintln reason
    return 1

end Paywatch.Launch

open Paywatch

def main (args : List String) : IO UInt32 := do
  let path := Launch.settingsPath (Launch.settingsName args)
  match Settings.ofFile (← Launch.readText? path) with
  | .ok settings =>
    Launch.printReport (Launch.report settings (← Launch.readText? settings.targetsPath))
  | .error e => Launch.printReport (.error (Launch.refusal path e))
