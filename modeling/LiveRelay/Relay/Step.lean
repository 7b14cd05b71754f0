import LiveRelay.Relay.Basic

/-! # The steps of a relay

Everything that can happen to a relay is a `Move`: somebody runs or closes a component
or cancels a token, a task is looked at, or the network and the clock answer. Moves may
come in any order. `Relay.step` says what a move does to the relay and what comes of it.
-/

namespace LiveRelay

/-- What comes of a step of a relay. -/
inductive Occurrence where
  | event (event : Event)
  | request (connection : ConnectionId) (request : Request)
  | record (record : LogRecord)
  /-- The task wants to be told when the span is over. -/
  | deadline (task : Nat) (span : Duration)
  deriving DecidableEq

/-- What can happen to a relay. -/
inductive Move where
  /-- A component is run, in a task of its own. -/
  | run (component : Component) (token : Token)
  | close (component : Component)
  | cancel (token : Token)
  /-- A task is looked at, and goes on if it can. -/
  | poll (task : Nat)
  /-- The time that the task of a relay has is over. -/
  | expire (task : Nat)
  /-- The network or the clock answers a connection. -/
  | signal (connection : ConnectionId) (signal : Signal)

/-- A relay after a step, and what has come of it, in order. -/
structure Change where
  relay : Relay
  occurrences : List Occurrence := []
  deriving DecidableEq

namespace Change

/-- One step after another. -/
def andThen (change : Change) (next : Relay → Change) : Change :=
  let later := next change.relay
  ⟨later.relay, change.occurrences ++ later.occurrences⟩

end Change

/-- What came of a step of a connection, seen from the relay. -/
def Turn.occurrences (turn : Turn) (id : ConnectionId) : List Occurrence :=
  turn.effects.map fun
    | .emit kind => .event ⟨turn.connection.path, kind⟩
    | .request request => .request id request

namespace Relay

/-- Lets a connection take a step. -/
def stepConnection (relay : Relay) (id : ConnectionId) (step : Connection → FanOut → Turn) :
    Change :=
  match relay.endpoint? id.server id.endpoint with
  | none => ⟨relay, []⟩
  | some endpoint =>
      match endpoint.connections[id.index]? with
      | none => ⟨relay, []⟩
      | some connection =>
          let turn := step connection endpoint.fanOut
          ⟨relay.setEndpoint id.server id.endpoint (endpoint.after id.index turn),
            turn.occurrences id⟩

/-- Whether a running connection is to stop: it has been closed, or the token of its run
has been cancelled. -/
def interrupts (relay : Relay) (connection : Connection) : Bool :=
  match connection.life with
  | .running run _ => connection.closeRequested || relay.isCancelled run.token
  | _ => false

/-- Hands a signal to a connection. -/
def signal (relay : Relay) (id : ConnectionId) (signal : Signal) : Change :=
  relay.stepConnection id fun connection fanOut =>
    connection.resume fanOut (relay.interrupts connection) signal

/-! ## Closing -/

/-- Stops the relaying of an endpoint. -/
def closeFanOut (relay : Relay) (server endpoint : Nat) : Relay :=
  match relay.endpoint? server endpoint with
  | none => relay
  | some value => relay.setEndpoint server endpoint { value with fanOut := value.fanOut.close }

/-- Closes the first `count` parts of something, one after the other. -/
def closeEach (close : Relay → Nat → Change) (count : Nat) (relay : Relay) : Change :=
  (List.range count).foldl (fun change index => change.andThen (close · index)) ⟨relay, []⟩

/-- Closes an endpoint: first its fan-out, then its connections. -/
def closeEndpoint (relay : Relay) (server endpoint : Nat) : Change :=
  let close (relay : Relay) (index : Nat) : Change :=
    relay.stepConnection { server, endpoint, index } Connection.close
  closeEach close (relay.sizeOf (.endpoint server endpoint)) (relay.closeFanOut server endpoint)

def closeServer (relay : Relay) (server : Nat) : Change :=
  closeEach (closeEndpoint · server) (relay.sizeOf (.server server)) relay

/-- Closes a component and everything below it. Closing the relay cancels its token. -/
def close (relay : Relay) : Component → Change
  | .group .relay => closeEach closeServer (relay.sizeOf .relay) (relay.cancel .relay)
  | .group (.server server) => relay.closeServer server
  | .group (.endpoint server endpoint) => relay.closeEndpoint server endpoint
  | .connection id => relay.stepConnection id Connection.close

/-! ## Groups -/

/-- What is logged when a group begins. -/
def beginRecord (relay : Relay) (group : Group) (path : ComponentPath) : LogRecord :=
  let count := toString (relay.sizeOf group)
  match group with
  | .relay => ⟨.info, .relay, "Relay starting", [("servers", count)]⟩
  | .server _ => ⟨.info, .server, "Server starting", [("path", path.text), ("endpoints", count)]⟩
  | .endpoint server endpoint =>
      let sinks := ((relay.endpoint? server endpoint).map (·.fanOut.sinks.length)).getD 0
      ⟨.debug, .endpoint, "Starting endpoint",
        [("path", path.text), ("connections", count), ("sinks", toString sinks)]⟩

/-- Begins a group: each of its parts gets a task. Those of the relay watch its own
token. -/
def beginGroup (relay : Relay) (task : Nat) (group : Group) (token : Token) : Change :=
  match relay.pathOf? group with
  | none => ⟨relay.setPhase task (.done none), []⟩
  | some path =>
      let record := relay.beginRecord group path
      let childToken := if group = .relay then .relay else token
      let (children, relay) := relay.spawn (relay.childrenOf group) childToken
      ⟨relay.setPhase task (.joining children 0), [.event ⟨path, .started⟩, .record record]⟩

/-- Begins the one run of the relay. -/
def beginRelay (relay : Relay) (task : Nat) (token : Token) : Change :=
  if relay.hasRun then ⟨relay.setPhase task (.done (some (.relay .alreadyRunning))), []⟩
  else
    let change := { relay with hasRun := true }.beginGroup task .relay token
    match relay.runTimeout with
    | none => change
    | some span => { change with occurrences := change.occurrences ++ [.deadline task span] }

/-- What is logged when a group joins the task of a part that failed. -/
def joinRecord (group : Group) (path : ComponentPath) (failure : TaskFailure) : LogRecord :=
  let fields := [("path", path.text), ("error", failure.message)]
  match group with
  | .relay => ⟨.warn, .relay, "Server failed", [("error", failure.message)]⟩
  | .server _ => ⟨.warn, .server, "Endpoint failed", fields⟩
  | .endpoint _ _ => ⟨.warn, .endpoint, "Connection terminated", fields⟩

/-- Takes note that the task of a part is done. -/
def join (relay : Relay) (task : Nat) (group : Group) (children : List Nat)
    (failures child : Nat) : Change :=
  let rest := children.erase child
  match relay.phaseOf child with
  | .done (some failure) =>
      let path := (relay.pathOf? group).getD path
      ⟨relay.setPhase task (.joining rest (failures + 1)),
        [.record (joinRecord group path failure)]⟩
  | _ => ⟨relay.setPhase task (.joining rest failures), []⟩

/-- The failure of a group of which `failures` parts failed. The relay itself does not
fail. -/
def groupFailure? (group : Group) (path : ComponentPath) (failures : Nat) : Option RelayError :=
  if failures = 0 then none
  else
    match group with
    | .relay => none
    | .server _ => some (.serverFailed path.text failures)
    | .endpoint _ _ => some (.endpointFailed path.text failures)

/-- What the last event of a group says of `failures` failed parts. -/
def stopText? (group : Group) (path : ComponentPath) (failures : Nat) : Option String :=
  match group with
  | .relay => if failures = 0 then none else some s!"{failures} server(s) failed"
  | group => (groupFailure? group path failures).map RelayError.message

/-- What is logged when a group ends. -/
def endRecords (group : Group) (path : ComponentPath) (failures : Nat) : List LogRecord :=
  let count := ("failures", toString failures)
  match group with
  | .relay => [⟨.info, .relay, "Relay stopped", [count]⟩]
  | .server _ => [⟨.info, .server, "Server stopped", [("path", path.text), count]⟩]
  | .endpoint _ _ => []

/-- Ends a group when the tasks of all its parts have been joined. The relay cancels its
token, and an endpoint closes its fan-out. -/
def endGroup (relay : Relay) (task : Nat) (group : Group) (failures : Nat) : Change :=
  let path := (relay.pathOf? group).getD path
  let relay :=
    match group with
    | .relay => relay.cancel .relay
    | .server _ => relay
    | .endpoint server endpoint => relay.closeFanOut server endpoint
  ⟨relay.setPhase task (.done ((groupFailure? group path failures).map .relay)),
    (endRecords group path failures).map .record
      ++ [.event ⟨path, .stopped (stopText? group path failures)⟩]⟩

/-- Stops the relay, unless it is stopping already. -/
def stop (relay : Relay) (reason : String) : Change :=
  if relay.isCancelled .relay then ⟨relay, []⟩
  else ⟨relay.cancel .relay, [.record ⟨.info, .relay, reason, []⟩]⟩

/-! ## Tasks -/

/-- Begins a connection. A second run has nothing to do. -/
def beginConnection (relay : Relay) (task : Nat) (id : ConnectionId) (token : Token) : Change :=
  match relay.connection? id with
  | some { life := .unstarted, .. } =>
      let change := relay.stepConnection id fun connection fanOut =>
        connection.start fanOut token (relay.isCancelled token)
      { change with relay := change.relay.setPhase task .driving }
  | _ => ⟨relay.setPhase task (.done none), []⟩

/-- Begins what a task runs. -/
def begin (relay : Relay) (task : Nat) (component : Component) (token : Token) : Change :=
  match component with
  | .connection id => relay.beginConnection task id token
  | .group .relay => relay.beginRelay task token
  | .group group => relay.beginGroup task group token

/-- Goes on with a group that waits for its parts; `none` if it has to wait longer. -/
def advanceGroup? (relay : Relay) (task : Nat) (group : Group) (token : Token)
    (children : List Nat) (failures : Nat) : Option Change :=
  match children.find? fun child => (relay.phaseOf child).isDone with
  | some child => some (relay.join task group children failures child)
  | none =>
      if children.isEmpty then some (relay.endGroup task group failures)
      else if group = .relay ∧ relay.isCancelled token ∧ !relay.isCancelled .relay then
        some (relay.stop "Shutdown signal received")
      else none

/-- What a task does when it is looked at; `none` if it can only wait. -/
def poll? (relay : Relay) (task : Nat) : Option Change := do
  let { component, token, phase } ← relay.tasks[task]?
  match component, phase with
  | component, .ready => relay.begin task component token
  | .group group, .joining children failures =>
      relay.advanceGroup? task group token children failures
  | .connection id, .driving =>
      match (← relay.connection? id).life with
      | .ended failure => some ⟨relay.setPhase task (.done (failure.map .connection)), []⟩
      | _ => none
  | _, _ => none

/-- Tells the task of the relay that its time is over. -/
def expire (relay : Relay) (task : Nat) : Change :=
  match relay.phaseOf task with
  | .joining _ _ => relay.stop "Run timeout elapsed"
  | _ => ⟨relay, []⟩

/-- What a move does. -/
def step (relay : Relay) : Move → Change
  | .run component token => ⟨(relay.spawn [component] token).2, []⟩
  | .close component => relay.close component
  | .cancel token => ⟨relay.cancel token, []⟩
  | .poll task => (relay.poll? task).getD ⟨relay, []⟩
  | .expire task => relay.expire task
  | .signal id signal => relay.signal id signal

end Relay

end LiveRelay
