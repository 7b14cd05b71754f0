import LiveRelay.Endpoint
import LiveRelay.Error
import LiveRelay.Event.Record

/-! # Relays

A relay is a tree of servers, endpoints and connections together with the tasks that
run them. The task of a component starts a task for every component below it and joins
them; the task of a connection drives the connection.
-/

namespace LiveRelay

/-- The place of a connection in the tree. -/
structure ConnectionId where
  server : Nat
  endpoint : Nat
  index : Nat
  deriving DecidableEq

/-- A part of the tree that has parts below it. -/
inductive Group where
  | relay
  | server (server : Nat)
  | endpoint (server endpoint : Nat)
  deriving DecidableEq

/-- A part of the tree. -/
inductive Component where
  | group (group : Group)
  | connection (id : ConnectionId)
  deriving DecidableEq

/-- How a task can fail. -/
inductive TaskFailure where
  | connection (cause : ConnectionError)
  | relay (cause : RelayError)
  deriving DecidableEq

def TaskFailure.message : TaskFailure → String
  | connection cause => cause.message
  | relay cause => cause.message

/-- How far a task has come. -/
inductive TaskPhase where
  /-- It has not been looked at yet. -/
  | ready
  /-- It waits for the tasks in `children`; `failures` of those it has joined failed. -/
  | joining (children : List Nat) (failures : Nat)
  /-- It drives its connection. -/
  | driving
  | done (failure : Option TaskFailure)
  deriving DecidableEq

namespace TaskPhase

def isDone : TaskPhase → Bool
  | done _ => true
  | _ => false

end TaskPhase

/-- A task that runs a component. -/
structure Task where
  component : Component
  /-- Cancelling it stops what the task runs. -/
  token : Token
  phase : TaskPhase := .ready
  deriving DecidableEq

/-- A relay with its tasks, which are numbered in the order in which they were started. -/
structure Relay where
  servers : List Server
  runTimeout : Option Duration := none
  /-- Whether it has been run, which it can be only once. -/
  hasRun : Bool := false
  /-- The tokens that have been cancelled. -/
  cancelled : List Token := []
  tasks : List Task := []
  deriving DecidableEq

namespace Relay

def path : ComponentPath := .root

/-- The relay of a configuration, without regard to whether it can be built. -/
def ofConfig (config : Config) : Relay where
  servers := config.servers.mapIdx (Server.ofConfig path)
  runTimeout := config.runTimeout

/-- Builds the relay of a valid configuration. -/
def build (config : Config) : Except RelayError Relay :=
  match config.checked with
  | .error cause => .error (.config cause)
  | .ok config => .ok (ofConfig config)

def isCancelled (relay : Relay) (token : Token) : Bool := relay.cancelled.contains token

/-- Cancels a token. -/
def cancel (relay : Relay) (token : Token) : Relay :=
  if relay.isCancelled token then relay
  else { relay with cancelled := token :: relay.cancelled }

def server? (relay : Relay) (server : Nat) : Option Server := relay.servers[server]?

def endpoint? (relay : Relay) (server endpoint : Nat) : Option Endpoint :=
  (relay.server? server).bind (·.endpoints[endpoint]?)

def connection? (relay : Relay) (id : ConnectionId) : Option Connection :=
  (relay.endpoint? id.server id.endpoint).bind (·.connections[id.index]?)

/-- Puts an endpoint in the place of another. -/
def setEndpoint (relay : Relay) (server endpoint : Nat) (value : Endpoint) : Relay :=
  { relay with servers := relay.servers.modify server fun server =>
      { server with endpoints := server.endpoints.set endpoint value } }

/-- The path of a group. -/
def pathOf? (relay : Relay) : Group → Option ComponentPath
  | .relay => some path
  | .server server => (relay.server? server).map Server.path
  | .endpoint server endpoint => (relay.endpoint? server endpoint).map Endpoint.path

/-- How many parts are right below a group. -/
def sizeOf (relay : Relay) : Group → Nat
  | .relay => relay.servers.length
  | .server server => ((relay.server? server).map (·.endpoints.length)).getD 0
  | .endpoint server endpoint =>
      ((relay.endpoint? server endpoint).map (·.connections.length)).getD 0

/-- The parts right below a group, in order. -/
def childrenOf (relay : Relay) (group : Group) : List Component :=
  (List.range (relay.sizeOf group)).map fun index =>
    match group with
    | .relay => .group (.server index)
    | .server server => .group (.endpoint server index)
    | .endpoint server endpoint => .connection { server, endpoint, index }

/-- The paths of all connections in the order of the tree. -/
def connectionPaths (relay : Relay) : List ComponentPath :=
  relay.servers.flatMap fun server =>
    server.endpoints.flatMap fun endpoint => endpoint.connections.map Connection.path

/-- The phase of a task. A task that was never started is done. -/
def phaseOf (relay : Relay) (task : Nat) : TaskPhase :=
  (relay.tasks[task]?.map Task.phase).getD (.done none)

def setPhase (relay : Relay) (task : Nat) (phase : TaskPhase) : Relay :=
  { relay with tasks := relay.tasks.modify task fun task => { task with phase } }

/-- Starts a task for every component, and says which. -/
def spawn (relay : Relay) (components : List Component) (token : Token) : List Nat × Relay :=
  (List.range' relay.tasks.length components.length,
    { relay with tasks := relay.tasks ++ components.map fun component => { component, token } })

end Relay

end LiveRelay
