import LiveRelay.Relay.Status
import LiveRelay.Relay.Step
import LiveRelay.Simulation.Network

/-! # A relay on a scripted network and a virtual clock

Nothing takes time but what the script and the configuration say. At every instant each
task goes on until it has to wait, the one that has waited longest first; then the clock
moves to the next time at which something is due.
-/

namespace LiveRelay

/-- A relay with its network and its clock. -/
structure World where
  /-- Milliseconds since the beginning. -/
  now : Nat := 0
  relay : Relay
  network : Network
  /-- All tasks, the one first that has not taken a step for longest. -/
  order : List Nat := []
  /-- The tasks that want to be told, and when. -/
  deadlines : List (Nat × Nat) := []
  /-- The events so far, and when they happened. -/
  events : Array (Nat × Event) := #[]
  records : Array LogRecord := #[]
  /-- The tasks that are done, and since when. -/
  ended : Array (Nat × Nat) := #[]

namespace World

/-- Takes note of what has come of a step. -/
def observe (world : World) : Occurrence → World
  | .event event =>
      { world with
        events := world.events.push (world.now, event)
        records := world.records.push (.ofEvent event) }
  | .record record => { world with records := world.records.push record }
  | .deadline task span =>
      { world with deadlines := (task, world.now + span.ceilMillis) :: world.deadlines }
  | .request id request =>
      match world.relay.connection? id with
      | none => world
      | some connection =>
          { world with
            network := world.network.request id connection.config.address world.now request }

/-- Goes on with a changed relay. Tasks that are new come last. -/
def follow (world : World) (change : Change) : World :=
  let known := world.order.length
  let started := List.range' known (change.relay.tasks.length - known)
  change.occurrences.foldl observe
    { world with relay := change.relay, order := world.order ++ started }

/-- Puts a task behind all others. -/
def moveBack (world : World) (task : Nat) : World :=
  { world with order := world.order.erase task ++ [task] }

/-- Tells the task of the relay that its time is over, if it is. -/
def expire? (world : World) (task : Nat) : Option World :=
  if world.deadlines.any fun (waiting, due) => waiting = task ∧ due ≤ world.now then
    let deadlines := world.deadlines.filter fun (waiting, _) => waiting ≠ task
    some ({ world with deadlines }.follow (world.relay.expire task))
  else none

/-- The signal that a connection can be handed now. A sink looks at its link before it
looks at its queue. -/
def signal? (world : World) (id : ConnectionId) : Option (Signal × Network) := do
  let endpoint ← world.relay.endpoint? id.server id.endpoint
  let connection ← endpoint.connections[id.index]?
  if world.relay.interrupts connection then some (.woken, world.network)
  else
    match world.network.answer? id connection.config.address world.now with
    | some answer => some answer
    | none =>
        match connection.life, connection.framePath with
        | .running _ (.watching _), .deliver sink =>
            if endpoint.fanOut.isReady sink then some (.woken, world.network) else none
        | _, _ => none

/-- The next step of a task; `none` if it can only wait. -/
def advance? (world : World) (task : Nat) : Option World :=
  match world.relay.poll? task with
  | some change =>
      let world := world.follow change
      some <|
        if (world.relay.phaseOf task).isDone then
          { world with ended := world.ended.push (task, world.now) }
        else world
  | none =>
      match world.relay.tasks[task]? with
      | some { component := .group _, .. } => world.expire? task
      | some { component := .connection id, phase := .driving, .. } => do
          let (signal, network) ← world.signal? id
          return { world with network }.follow (world.relay.signal id signal)
      | _ => none

/-- Lets the tasks of `round` go on, each until it has to wait, and then goes round again
if any of them has taken a step. `fuel` bounds the number of steps. -/
def settle : (fuel : Nat) → (moved : Bool) → (round : List Nat) → World → World
  | 0, _, _, world => world
  | fuel + 1, moved, [], world => if moved then settle fuel false world.order world else world
  | fuel + 1, moved, task :: rest, world =>
      match world.advance? task with
      | some world => settle fuel true (task :: rest) (world.moveBack task)
      | none => settle fuel moved rest world

/-- More steps than an instant has. -/
def stepLimit : Nat := 10000000

/-- Lets everything happen that can happen now. -/
def settled (world : World) : World := world.settle stepLimit true []

/-- The times at which something is due for a task. -/
def dueTimes (world : World) (task : Task) : List Nat :=
  match task with
  | { component := .connection id, phase := .driving, .. } => (world.network.line id).due?.toList
  | _ => []

/-- The next time at which something is due. -/
def nextTime? (world : World) : Option Nat :=
  let times := world.relay.tasks.flatMap world.dueTimes ++ world.deadlines.map (·.2)
  (times.filter (world.now < ·)).min?

/-- Lets time pass up to `time`, or until `stop` holds. `fuel` bounds the number of
instants. -/
def passTo (stop : World → Bool) (time : Nat) : (fuel : Nat) → World → World
  | 0, world => world
  | fuel + 1, world =>
      if stop world then world
      else
        match world.nextTime? with
        | some due =>
            if due ≤ time then passTo stop time fuel { world with now := due }.settled
            else { world with now := time }
        | none => { world with now := time }

/-- Lets time pass up to `time`, or until `stop` holds. An instant is at least a
millisecond. -/
def waitUntil (world : World) (stop : World → Bool) (time : Nat) : World :=
  if time ≤ world.now then world else world.passTo stop time (time + 1 - world.now)

end World

end LiveRelay
