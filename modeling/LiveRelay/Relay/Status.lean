import LiveRelay.Relay.Basic

/-! # The status of a relay

A picture of the tree at one moment, for somebody outside to show.
-/

namespace LiveRelay

structure ConnectionStatus where
  path : ComponentPath
  address : String
  role : ConnectionRole
  direction : Direction
  state : ConnectionState
  /-- Retries used since the last link. -/
  attempt : Nat
  lastError : Option String
  localAddress : Option SocketAddress
  /-- How many frames its queue has given up; a source has no queue. -/
  droppedFrames : Option Nat
  stats : ConnectionStats
  deriving DecidableEq

structure EndpointStatus where
  path : ComponentPath
  applicationName : String
  streamName : String
  connections : List ConnectionStatus
  deriving DecidableEq

structure ServerStatus where
  path : ComponentPath
  endpoints : List EndpointStatus
  deriving DecidableEq

structure RelayStatus where
  /-- Whether it has been run and not been told to stop. -/
  running : Bool
  servers : List ServerStatus
  deriving DecidableEq

/-- The status of a connection of the endpoint with this fan-out. -/
def Connection.status (connection : Connection) (fanOut : FanOut) : ConnectionStatus where
  path := connection.path
  address := connection.config.address
  role := connection.config.role
  direction := connection.config.direction
  state := connection.state
  attempt := connection.attempt
  lastError := connection.lastFailure.map ConnectionError.message
  localAddress := connection.localAddress
  droppedFrames :=
    match connection.framePath with
    | .publish => none
    | .deliver sink => some (fanOut.dropped sink)
  stats := connection.stats

def Endpoint.status (endpoint : Endpoint) : EndpointStatus where
  path := endpoint.path
  applicationName := endpoint.applicationName
  streamName := endpoint.streamName
  connections := endpoint.connections.map (·.status endpoint.fanOut)

def Server.status (server : Server) : ServerStatus where
  path := server.path
  endpoints := server.endpoints.map Endpoint.status

def Relay.status (relay : Relay) : RelayStatus where
  running := relay.hasRun && !relay.isCancelled .relay
  servers := relay.servers.map Server.status

/-- The status of every connection in the order of the tree. -/
def RelayStatus.connections (status : RelayStatus) : List ConnectionStatus :=
  status.servers.flatMap fun server => server.endpoints.flatMap EndpointStatus.connections

end LiveRelay
