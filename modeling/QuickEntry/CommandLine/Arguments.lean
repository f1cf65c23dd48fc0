import QuickEntry.Text.Digits

/-! What the arguments of the command ask for. -/

namespace QuickEntry

/-- What a run of a script needs. -/
structure Arguments where
  /-- The file with the script. -/
  scenario : String
  /-- The file with the settings. -/
  config : Option String
  /-- The file with the component types. -/
  components : Option String
deriving DecidableEq, Repr

/-- Why the arguments ask for no run. -/
inductive ArgumentStop where
  /-- Help or the version is asked for. -/
  | information
  /-- The arguments are unknown, incomplete or repeated. -/
  | misuse
deriving DecidableEq, Repr

namespace Arguments

/-- An option that takes a value. -/
inductive Key where
  | config | components | logLevel
deriving DecidableEq, Repr

/-- The option of a name. -/
def Key.ofName? : String → Option Key
  | "config" => some config
  | "components" => some components
  | "log-level" => some logLevel
  | _ => none

/-- One argument on its own. -/
inductive Word where
  /-- Two hyphens: the rest are operands. -/
  | terminator
  /-- An option, with the value that is attached to it. -/
  | key (key : Key) (attached : Option String)
  /-- Help or the version. -/
  | information
  /-- Anything else. -/
  | operand (text : String)
  /-- An unknown option. -/
  | unknown
deriving DecidableEq, Repr

/-- The word after two hyphens, which may have a value attached by an equals sign. -/
def Word.ofLong (word : List Char) : Word :=
  -- Names are not abbreviated, and only some of them take a value.
  let name := String.ofList (word.takeWhile (· ≠ '='))
  match word.dropWhile (· ≠ '='), Key.ofName? name with
  | _ :: value, some k => .key k (some (String.ofList value))
  | [], some k => .key k none
  | [], none => if name = "help" || name = "version" then .information else .unknown
  | _ :: _, none => .unknown

/-- What an argument is; a hyphen alone is an operand. -/
def Word.ofText (text : String) : Word :=
  match text.toList with
  | ['-', '-'] => .terminator
  | '-' :: '-' :: long => .ofLong long
  | ['-'] => .operand text
  | '-' :: letter :: _ => if letter = 'h' || letter = 'V' then .information else .unknown
  | _ => .operand text

/-- The names of the log levels, which also go by the numbers from one. -/
def logLevels : List String := ["error", "warn", "info", "debug", "trace"]

/-- A text is a log level, in letters of any case or as a number. -/
def isLogLevel (text : String) : Bool :=
  -- The number of a level may be written like any number.
  match Text.readNat? Text.maxWord text.toList with
  | some n => 1 ≤ n && n ≤ logLevels.length
  | none => logLevels.contains (String.ofList (text.toList.map Char.toLower))

/-- The values read so far; the command writes no log, so that of the level only its presence
counts. -/
structure Gathered where
  scenario : Option String := none
  config : Option String := none
  components : Option String := none
  hasLogLevel : Bool := false
deriving DecidableEq, Repr

/-- Take an operand, of which there is one. -/
def Gathered.operand (p : Gathered) (text : String) : Except ArgumentStop Gathered :=
  if p.scenario.isSome then .error .misuse else .ok { p with scenario := some text }

/-- Take the value of an option, which may be given once. -/
def Gathered.set (p : Gathered) (key : Key) (value : String) : Except ArgumentStop Gathered :=
  match key with
  | .config => if p.config.isSome then .error .misuse else .ok { p with config := some value }
  | .components =>
    if p.components.isSome then .error .misuse else .ok { p with components := some value }
  | .logLevel =>
    if p.hasLogLevel || !isLogLevel value then .error .misuse
    else .ok { p with hasLogLevel := true }

/-- Read the arguments one after the other; the first that is wrong counts. -/
def Gathered.read (p : Gathered) : List String → Except ArgumentStop Gathered
  -- A value that is not attached is the next argument, which may not look like an option.
  | [] => .ok p
  | text :: rest =>
    match Word.ofText text with
    | .terminator => rest.foldlM Gathered.operand p
    | .information => .error .information
    | .unknown => .error .misuse
    | .operand text => do (← p.operand text).read rest
    | .key key (some value) => do (← p.set key value).read rest
    | .key key none =>
      match rest with
      | [] => .error .misuse
      | value :: rest =>
        match Word.ofText value with
        | .operand value => do (← p.set key value).read rest
        | _ => .error .misuse

/-- What the arguments ask for; there must be a script. -/
def ofTexts (texts : List String) : Except ArgumentStop Arguments := do
  let p ← Gathered.read {} texts
  match p.scenario with
  | none => throw .misuse
  | some scenario => return ⟨scenario, p.config, p.components⟩

end Arguments

end QuickEntry
