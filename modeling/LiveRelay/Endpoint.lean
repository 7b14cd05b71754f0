import LiveRelay.Connection.Step

/-! # Endpoints and servers

An endpoint groups the connections that relay one stream: its sources publish into one
fan-out, which has a queue for each of its sinks. A server groups endpoints.
-/

namespace LiveRelay

/-- Connections that relay frames between each other. -/
structure Endpoint where
  path : ComponentPath
  applicationName : String
  streamName : String
  fanOut : FanOut
  connections : List Connection
  deriving DecidableEq

namespace Endpoint

/-- The frame paths of connections, when `next` is the first free queue: every sink gets
the next one. -/
def framePaths : (next : Nat) → List ConnectionConfig → List FramePath
  | _, [] => []
  | next, config :: configs =>
      match config.direction with
      | .input => .publish :: framePaths next configs
      | .output => .deliver next :: framePaths (next + 1) configs

/-- The endpoint of a configuration, at a place under the server at `parent`. -/
def ofConfig (parent : ComponentPath) (index : Nat) (config : EndpointConfig) : Endpoint :=
  let path := parent.endpoint index config
  let connections := config.connections
  let sinks := connections.filter (·.direction = .output)
  { path
    applicationName := config.applicationName
    streamName := config.streamName
    fanOut :=
      { filter := .ofConfig config
        sinks := sinks.map fun _ => SinkQueue.ofCapacity config.queueCapacity }
    connections :=
      List.zipWith (Connection.ofConfig path) connections (framePaths 0 connections) }

/-- The endpoint after a step of one of its connections. -/
def after (endpoint : Endpoint) (index : Nat) (turn : Turn) : Endpoint :=
  { endpoint with
    fanOut := turn.fanOut
    connections := endpoint.connections.set index turn.connection }

end Endpoint

/-- Endpoints side by side. -/
structure Server where
  path : ComponentPath
  endpoints : List Endpoint
  deriving DecidableEq

/-- The server of a configuration, at a place under the relay at `parent`. -/
def Server.ofConfig (parent : ComponentPath) (index : Nat) (config : ServerConfig) : Server :=
  let path := parent.server index
  { path, endpoints := config.endpoints.mapIdx (Endpoint.ofConfig path) }

end LiveRelay
