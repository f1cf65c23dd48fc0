import QuickEntry.CommandLine.Run

/-! The command line: run a script of quick-entry steps and print the program graph as JSON. -/

namespace QuickEntry.CommandLine

/-- How the command is used. -/
def usage : String :=
  "Usage: [--config FILE] [--components FILE] [--log-level LEVEL] SCENARIO"

/-- Read a file, if it can be read. -/
def readFile? (path : String) : IO (Option String) := do
  try return some (← IO.FS.readFile path) catch _ => return none

end QuickEntry.CommandLine

open QuickEntry CommandLine in
/-- Run the command and end with its exit code. -/
def main (arguments : List String) : IO UInt32 := do
  let result ← run readFile? arguments
  match result with
  | .report text => IO.println text
  | .information => IO.println usage
  | .misuse => IO.eprintln usage
  | .failure cause => IO.eprintln ("Error: " ++ cause.message)
  return result.code.toUInt32
