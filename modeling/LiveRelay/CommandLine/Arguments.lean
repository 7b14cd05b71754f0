import LiveRelay.Text.Similarity

/-! # The arguments of the program

`Arguments.read` goes through the arguments in order and stops at the first that is wrong
or asks for a text. The value of an option is only looked at when the next option comes
or the arguments end, so a wrong argument further on is reported first.
-/

namespace LiveRelay

/-- What the program can be told. -/
inductive Switch where
  | config
  | daemon
  | killDaemon
  | reloadConfig
  | help
  | version
  deriving DecidableEq

namespace Switch

def all : List Switch := [config, daemon, killDaemon, reloadConfig, help, version]

def name : Switch → String
  | config => "config"
  | daemon => "daemon"
  | killDaemon => "kill-daemon"
  | reloadConfig => "reload-config"
  | help => "help"
  | version => "version"

def letter? : Switch → Option Char
  | config => some 'c'
  | help => some 'h'
  | version => some 'V'
  | _ => none

/-- The switch as messages show it. -/
def display : Switch → String
  | config => "--config <CONFIG>"
  | switch => "--" ++ switch.name

def ofName? (name : String) : Option Switch := all.find? (·.name = name)

def ofLetter? (letter : Char) : Option Switch := all.find? (·.letter? = some letter)

/-- What help says of the switch. -/
def description : Switch → String
  | config => "Path to the YAML configuration file"
  | daemon => "Run in the background (handled by the process supervisor)"
  | killDaemon => "Stop a running background instance (handled by the process supervisor)"
  | reloadConfig =>
      "Ask a running instance to reload its configuration (handled by the process supervisor)"
  | help => "Print help"
  | version => "Print version"

end Switch

/-- What is wrong with the arguments. -/
inductive UsageError where
  /-- The configuration file is not named. -/
  | missingValue
  | repeated (switch : Switch)
  /-- An argument that means nothing, perhaps a misspelt switch, after the switches in
  `used`. -/
  | unexpected (argument : String) (similar : Option Switch) (used : List Switch)
  /-- A value for a switch that has none. -/
  | unexpectedValue (value : String) (switch : Switch) (used : List Switch)
  deriving DecidableEq

/-- Why the program does not start. -/
inductive Stop where
  | help
  | version
  | error (error : UsageError)
  deriving DecidableEq

/-- What is known of the value of an option. -/
inductive PendingValue where
  | none
  /-- The option has been named. -/
  | awaited
  | given (value : String)
  deriving DecidableEq

/-- What the arguments say. -/
structure Arguments where
  config : Option String := none
  /-- The switches in the order in which they were first set. -/
  used : List Switch := []
  pending : PendingValue := .none
  deriving DecidableEq

namespace Arguments

def has (arguments : Arguments) (switch : Switch) : Bool := arguments.used.contains switch

/-- Looks at the value of an option that has been named. -/
def settle (arguments : Arguments) : Except Stop Arguments :=
  match arguments.pending with
  | .none => .ok arguments
  | .awaited => .error (.error .missingValue)
  | .given value =>
      if arguments.has .config then .error (.error (.repeated .config))
      else if value.isEmpty then .error (.error .missingValue)
      else
        .ok { config := some value, used := arguments.used ++ [.config], pending := .none }

/-- Gives up on an argument. What is pending counts as set if nothing is wrong with it. -/
def reject {α : Type} (arguments : Arguments) (argument : String) (similar : Option Switch)
    (showUsed : Bool) : Except Stop α :=
  let arguments := (arguments.settle).toOption.getD arguments
  let used := if showUsed then arguments.used ++ similar.toList else []
  .error (.error (.unexpected argument similar used.eraseDups))

/-- Sets a switch without a value. -/
def set (arguments : Arguments) (switch : Switch) : Except Stop Arguments := do
  let arguments ← arguments.settle
  match switch with
  | .help => throw .help
  | .version => throw .version
  | switch =>
      if arguments.has switch then throw (.error (.repeated switch))
      else return { arguments with used := arguments.used ++ [switch] }

/-- Names the option for the configuration file, perhaps with its value. -/
def nameConfig (arguments : Arguments) (value : Option String) : Except Stop Arguments := do
  let arguments ← arguments.settle
  match value with
  | none => return { arguments with pending := .awaited }
  | some value => settle { arguments with pending := .given value }

/-- The switch that a misspelt name may stand for. -/
def similarSwitch? (name : String) : Option Switch :=
  (Text.mostSimilar? name ⟨7, 10⟩ (Switch.all.map Switch.name)).bind Switch.ofName?

/-- Reads an argument after its two dashes. -/
def readLong (arguments : Arguments) (text : List Char) : Except Stop Arguments :=
  let name := String.ofList (text.takeWhile (· ≠ '='))
  let value :=
    match text.dropWhile (· ≠ '=') with
    | [] => none
    | _ :: value => some (String.ofList value)
  match Switch.ofName? name, value with
  | none, _ => arguments.reject ("--" ++ name) (similarSwitch? name) true
  | some .config, value => arguments.nameConfig value
  | some switch, none => arguments.set switch
  | some switch, some value =>
      .error (.error (.unexpectedValue value switch (arguments.used ++ [switch]).eraseDups))

/-- Reads the letters of an argument after its one dash. -/
def readShort (arguments : Arguments) : List Char → Except Stop Arguments
  | [] => .ok arguments
  | letter :: rest =>
      match Switch.ofLetter? letter with
      | none => arguments.reject (String.ofList ['-', letter]) none false
      | some .config =>
          arguments.nameConfig <|
            match rest with
            | [] => none
            | '=' :: value => some (String.ofList value)
            | value => some (String.ofList value)
      | some switch => do readShort (← arguments.set switch) rest

/-- Reads one argument; `trailing` is one after `--`. -/
def readOne (arguments : Arguments) (argument : String) : Except Stop Arguments :=
  match argument.toList with
  | '-' :: '-' :: text => arguments.readLong text
  | '-' :: letter :: rest => arguments.readShort (letter :: rest)
  | _ =>
      if arguments.pending = .awaited then
        .ok { arguments with pending := .given argument }
      else arguments.reject argument none false

/-- Reads the arguments from the left. Nothing may follow `--`. -/
def readFrom (arguments : Arguments) : List String → Except Stop Arguments
  | [] => arguments.settle
  | "--" :: [] => arguments.settle
  | "--" :: argument :: _ => arguments.reject argument none false
  | argument :: rest => do readFrom (← arguments.readOne argument) rest

/-- Reads the arguments of the program. -/
def read (arguments : List String) : Except Stop Arguments := readFrom {} arguments

end Arguments

namespace UsageError

/-- How to use the program, with the switches that were used. -/
def usage (used : List Switch) : String :=
  let switches := if used.isEmpty then ["[OPTIONS]"] else used.map Switch.display
  "Usage: rtmp-relay " ++ String.intercalate " " switches

def hint : String := "For more information, try '--help'."

/-- The lines that report the error. -/
def lines : UsageError → List String
  | missingValue =>
      ["error: a value is required for '--config <CONFIG>' but none was supplied", "", hint]
  | repeated switch =>
      [s!"error: the argument '{switch.display}' cannot be used multiple times", "",
        usage [], "", hint]
  | unexpected argument similar used =>
      [s!"error: unexpected argument '{argument}' found", ""]
        ++ (match similar with
          | some switch => [s!"  tip: a similar argument exists: '--{switch.name}'", ""]
          | none => [])
        ++ [usage used, "", hint]
  | unexpectedValue value switch used =>
      [s!"error: unexpected value '{value}' for '{switch.display}' found; no more were expected",
        "", usage used, "", hint]

end UsageError

/-- The lines of the help text. -/
def helpLines : List String :=
  let lead (switch : Switch) : String :=
    match switch.letter? with
    | some letter => s!"  -{letter}, {switch.display}"
    | none => s!"      {switch.display}"
  let width := ((Switch.all.map fun switch => (lead switch).length).max?).getD 0
  let line (switch : Switch) : String :=
    let text := lead switch
    text ++ String.ofList (List.replicate (width + 2 - text.length) ' ') ++ switch.description
  ["Configurable RTMP relay daemon", "", "Usage: rtmp-relay [OPTIONS]", "", "Options:"]
    ++ Switch.all.map line

end LiveRelay
