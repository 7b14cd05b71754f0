import LiveRelay.Simulation.World

/-! # Playing a list of actions

Actions run and close components, cancel tokens and look at the status, each at its time.
After the last one the relay is left alone until all runs have ended.
-/

namespace LiveRelay

/-- Something to be done to a relay from outside. -/
inductive Command where
  | run (component : Component)
  | close (component : Component)
  | cancel (token : Token)
  | status

structure Action where
  time : Nat
  command : Command

/-- What an action comes to. -/
inductive Reply where
  /-- The number of the run, counted from zero. -/
  | run (number : Nat)
  | nothing
  | status (status : RelayStatus)

/-- A relay that is being played with. -/
structure Play where
  world : World
  /-- The tasks of the runs, in order. -/
  runs : List Nat := []
  replies : List Reply := []

namespace Play

/-- The token that all runs are given. -/
def token : Token := .caller 0

def ofRelay (relay : Relay) (script : NetworkScript) : Play :=
  { world := { relay, network := { script } } }

/-- Performs an action, when its time has come. -/
def perform (play : Play) (command : Command) : Play :=
  let world := play.world
  let move (move : Move) : World := (world.follow (world.relay.step move)).settled
  match command with
  | .run component =>
      { world := move (.run component token)
        runs := play.runs ++ [world.relay.tasks.length]
        replies := play.replies ++ [.run play.runs.length] }
  | .close component =>
      { play with world := move (.close component), replies := play.replies ++ [.nothing] }
  | .cancel token =>
      { play with world := move (.cancel token), replies := play.replies ++ [.nothing] }
  | .status => { play with replies := play.replies ++ [.status world.relay.status] }

/-- Waits for the time of an action and performs it. -/
def act (play : Play) (action : Action) : Play :=
  { play with world := play.world.waitUntil (fun _ => false) action.time }.perform action.command

/-- Whether all runs have ended. -/
def isOver (play : Play) (world : World) : Bool :=
  play.runs.all fun task => (world.relay.phaseOf task).isDone

/-- Performs all actions, and waits for the runs to end but not beyond `limit`. -/
def complete (play : Play) (actions : List Action) (limit : Nat) : Play :=
  let play := actions.foldl act play
  { play with world := play.world.waitUntil play.isOver limit }

/-- How a run ended, and when; `none` if it has not. -/
def outcome? (play : Play) (task : Nat) : Option (Nat × Option TaskFailure) :=
  match play.world.relay.phaseOf task with
  | .done failure => (play.world.ended.find? (·.1 = task)).map fun (_, time) => (time, failure)
  | _ => none

end Play

end LiveRelay
