import LiveRelay.CommandLine.Arguments
import LiveRelay.CommandLine.LogFilter
import LiveRelay.Config.Load
import LiveRelay.Simulation.Play

/-! # The program

`plan` says what the program does with its arguments: it ends at once with something to
say, or it runs a relay and shows the log.
-/

namespace LiveRelay

/-- What a program that has ended leaves behind. -/
structure Outcome where
  code : Nat := 0
  output : List String := []
  errors : List String := []
  deriving DecidableEq

/-- What the program does. -/
inductive Plan where
  | exit (outcome : Outcome)
  /-- Runs a relay, after saying the records in `greeting`, and shows the log through the
  filter. -/
  | run (relay : Relay) (filter : LogFilter) (greeting : List LogRecord)

namespace Plan

/-- A failure, its causes numbered if there is more than one. -/
def failureLines (message : String) (causes : List String) : List String :=
  let indented (lead rest text : String) : List String :=
    match text.splitOn "\n" with
    | [] => [lead]
    | first :: more => (lead ++ first) :: more.map (rest ++ ·)
  let chain :=
    match causes with
    | [] => []
    | [cause] => indented "    " "    " cause
    | causes =>
        (causes.mapIdx fun index cause => indented s!"    {index}: " "       " cause).flatten
  ("Error: " ++ message).splitOn "\n"
    ++ if chain.isEmpty then [] else ["", "Caused by:"] ++ chain

/-- What lies behind the failure to load a configuration, the immediate cause first. -/
def causesOf (error : ConfigError) : List String :=
  match error with
  | .read _ cause => [error.message, cause.message]
  | .parse _ cause => [error.message, cause.message]
  | .document cause => [error.message, cause.message]
  | .invalid _ => [error.message]

/-- The filter that the environment asks for, or else the one of the configuration. -/
def filterOf (environment : Option String) (config : LogConfig) : LogFilter :=
  (environment.bind LogFilter.ofText?).getD (.ofLevel config.filter)

/-- What is logged when one of the daemon switches is used. -/
def daemonRecord (arguments : Arguments) : LogRecord :=
  let field (name : String) (switch : Switch) : String × String :=
    (name, if arguments.has switch then "true" else "false")
  ⟨.info, .program, "Daemon control is delegated to the process supervisor, nothing to do",
    [field "daemon" .daemon, field "kill_daemon" .killDaemon,
      field "reload_config" .reloadConfig]⟩

def shown (filter : LogFilter) (records : List LogRecord) : List String :=
  (records.filter filter.shows).map LogRecord.line

/-- Plans with arguments that are in order. -/
def ofArguments (arguments : Arguments) (files : String → Except FileError ByteArray)
    (environment : Option String) : Plan :=
  if [.daemon, .killDaemon, .reloadConfig].any arguments.has then
    exit { output := shown (filterOf environment {}) [daemonRecord arguments] }
  else
    match arguments.config with
    | none =>
        exit
          { code := 1
            errors := failureLines "no configuration file given, pass --config <PATH>" [] }
    | some path =>
        match Config.loadFile path (files path) with
        | .error error =>
            exit { code := 1, errors := failureLines s!"failed to load {path}" (causesOf error) }
        | .ok config =>
            run (.ofConfig config) (filterOf environment config.log)
              [⟨.info, .program, "rtmp-relay v0.2.0 starting", [("config", path)]⟩]

/-- Plans with the arguments of the program, the files that it can read and the filter that
the environment asks for. -/
def make (arguments : List String) (files : String → Except FileError ByteArray)
    (environment : Option String) : Plan :=
  match Arguments.read arguments with
  | .ok arguments => ofArguments arguments files environment
  | .error .help => exit { output := helpLines }
  | .error .version => exit { output := ["rtmp-relay 0.2.0"] }
  | .error (.error error) => exit { code := 2, errors := error.lines }

/-- What is logged when the run of the relay has ended. -/
def farewell : LogRecord := ⟨.info, .program, "rtmp-relay stopped", []⟩

/-- Carries the plan out where no address can be reached, for at most `limit` milliseconds
on a virtual clock. -/
def carryOut (plan : Plan) (limit : Nat) : Outcome :=
  match plan with
  | exit outcome => outcome
  | run relay filter greeting =>
      let start : Action := ⟨0, .run (.group .relay)⟩
      let play := (Play.ofRelay relay []).complete [start] limit
      { output := shown filter (greeting ++ play.world.records.toList ++ [farewell]) }

end Plan

end LiveRelay
