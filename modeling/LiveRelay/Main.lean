import LiveRelay.CommandLine.Program

/-! # The command line

Carries out the plan of `Plan.make` on the real clock. This program has no way to reach a
network, so every call and every attempt to listen is turned down.
-/

namespace LiveRelay

/-- What reading a file comes to. -/
def readFile (path : String) : IO (Except FileError ByteArray) := do
  try
    return .ok (← IO.FS.readBinFile path)
  catch
    | .noFileOrDirectory .. => return .error .notFound
    | .permissionDenied .. => return .error .permissionDenied
    | .inappropriateType .. => return .error .isADirectory
    | error => return .error (.other (toString error))

def printAll (output : IO.FS.Stream) (lines : List String) : IO Unit := do
  for line in lines do
    output.putStrLn line
  output.flush

/-- Shows what is new in the log, and waits for the next time at which something is due,
until the run is over. -/
partial def follow (filter : LogFilter) (play : Play) (shown : Nat) : IO Unit := do
  let records := play.world.records.toList
  printAll (← IO.getStdout) (Plan.shown filter (records.drop shown))
  if play.isOver play.world then return
  let time := (play.world.nextTime?).getD (play.world.now + 1000)
  IO.sleep (UInt32.ofNat (time - play.world.now))
  let world := play.world.waitUntil (fun _ => false) time
  follow filter { play with world } records.length

/-- Carries out a plan and gives the exit code. -/
def execute (plan : Plan) : IO UInt32 := do
  match plan with
  | .exit outcome =>
      printAll (← IO.getStdout) outcome.output
      printAll (← IO.getStderr) outcome.errors
      return UInt32.ofNat outcome.code
  | .run relay filter greeting =>
      printAll (← IO.getStdout) (Plan.shown filter greeting)
      follow filter ((Play.ofRelay relay []).act ⟨0, .run (.group .relay)⟩) 0
      printAll (← IO.getStdout) (Plan.shown filter [Plan.farewell])
      return 0

end LiveRelay

def main (arguments : List String) : IO UInt32 := do
  let environment ← IO.getEnv "RUST_LOG"
  /- Only the file that the arguments name is read. -/
  let contents ←
    match LiveRelay.Arguments.read arguments with
    | .ok { config := some path, .. } => LiveRelay.readFile path
    | _ => pure (.error .notFound)
  LiveRelay.execute (.make arguments (fun _ => contents) environment)
