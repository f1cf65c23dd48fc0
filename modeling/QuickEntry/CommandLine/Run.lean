import QuickEntry.CommandLine.Arguments
import QuickEntry.Component.Json
import QuickEntry.Scenario.Run

/-! The command that runs a script and writes its report. -/

namespace QuickEntry

/-- Why the command writes no report. -/
inductive CommandError where
  | unreadableConfig (path : String)
  | malformedConfig (path : String)
  | unreadableComponents (path : String)
  | malformedComponents (path : String)
  | unreadableScenario (path : String)
  | malformedScenario (path : String)
  /-- A step of the script was refused. -/
  | refused (path : String) (cause : EditError)
deriving DecidableEq, Repr

/-- The wording of a cause. -/
def CommandError.message : CommandError → String
  | unreadableConfig path => "Read config " ++ path
  | malformedConfig path => "Parse config " ++ path
  | unreadableComponents path => "Read " ++ path
  | malformedComponents path => "Parse components " ++ path
  | unreadableScenario path => "Read scenario " ++ path
  | malformedScenario path => "Load scenario " ++ path
  | refused path _ => "Run scenario " ++ path

/-- How the command ends. -/
inductive CommandResult where
  /-- The report of the script. -/
  | report (text : String)
  /-- Help or the version is asked for. -/
  | information
  /-- The arguments make no sense. -/
  | misuse
  /-- The script could not be run. -/
  | failure (cause : CommandError)
deriving DecidableEq, Repr

/-- The exit code of an end. -/
def CommandResult.code : CommandResult → Nat
  | report _ | information => 0
  | failure _ => 1
  | misuse => 2

/-- Run a script on an empty graph and write its report. -/
def Scenario.report (scenario : Scenario) (database : ComponentDatabase) (settings : Settings) :
    Except EditError String :=
  (scenario.run.on (.start (.empty database) settings)).1.map fun r => r.toJson.pretty

namespace CommandLine

variable {m : Type → Type} [Monad m]

/-- Read a file and what it holds. -/
def load {α : Type} (readFile : String → m (Option String)) (decode : Json.Decoder α)
    (path : String) (unreadable malformed : String → CommandError) :
    ExceptT CommandError m α := do
  match ← readFile path with
  | none => throw (unreadable path)
  | some text =>
    match decode.ofText? text with
    | none => throw (malformed path)
    | some value => return value

/-- Load the settings, the component types and the script, in this order, and run the script. -/
def runWith (readFile : String → m (Option String)) (arguments : Arguments) :
    ExceptT CommandError m String := do
  -- A later file is not read if an earlier one is wrong.
  let settings ← match arguments.config with
    | none => pure {}
    | some path => load readFile Settings.decoder path .unreadableConfig .malformedConfig
  let database ← match arguments.components with
    | none => pure .builtin
    | some path =>
      load readFile ComponentDatabase.decoder path .unreadableComponents .malformedComponents
  let path := arguments.scenario
  let scenario ← load readFile Scenario.decoder path .unreadableScenario .malformedScenario
  match scenario.report database settings with
  | .ok text => return text
  | .error cause => throw (.refused path cause)

/-- Run the command; files are read by the given function. -/
def run (readFile : String → m (Option String)) (arguments : List String) : m CommandResult := do
  -- Nothing is read before the arguments make sense.
  match Arguments.ofTexts arguments with
  | .error .information => return .information
  | .error .misuse => return .misuse
  | .ok arguments =>
    match ← (runWith readFile arguments).run with
    | .ok text => return .report text
    | .error cause => return .failure cause

end CommandLine

end QuickEntry
