import LiveRelay.Codec.Basic
import LiveRelay.Connection.State
import LiveRelay.Duration

/-! # Configuration

A configuration is a tree: servers hold endpoints, and an endpoint lists the addresses
of its connections. `EndpointConfig.connections` resolves every address into the
settings of one connection.
-/

namespace LiveRelay

/-- Whether a connection waits for its peer or calls it. -/
inductive ConnectionRole where
  | host
  | client
  deriving DecidableEq

def ConnectionRole.name : ConnectionRole → String
  | host => "host"
  | client => "client"

/-- Which way frames pass through a connection. -/
inductive Direction where
  /-- From the peer into the relay: the connection is a source. -/
  | input
  /-- From the relay to the peer: the connection is a sink. -/
  | output
  deriving DecidableEq

def Direction.name : Direction → String
  | input => "input"
  | output => "output"

/-- What a host does when its peer has left. -/
inductive ListenMode where
  /-- Accept the next peer. -/
  | persistent
  /-- End. -/
  | singleShot
  deriving DecidableEq

def ListenMode.name : ListenMode → String
  | persistent => "persistent"
  | singleShot => "singleShot"

def CodecKind.name : CodecKind → String
  | raw => "raw"
  | flv => "flv"

/-- The version of the object encoding. -/
inductive AmfVersion where
  | amf0
  | amf3
  deriving DecidableEq

namespace AmfVersion

def number : AmfVersion → Nat
  | amf0 => 0
  | amf3 => 3

def ofNumber? : Nat → Option AmfVersion
  | 0 => some amf0
  | 3 => some amf3
  | _ => none

end AmfVersion

/-- One entry of the address list of an endpoint. -/
inductive AddressConfig where
  /-- An address alone; role and direction are those of the endpoint. -/
  | plain (address : String)
  /-- An address with a role and a direction of its own, where given. -/
  | detailed (address : String) (role : Option ConnectionRole) (direction : Option Direction)
  deriving DecidableEq

def AddressConfig.address : AddressConfig → String
  | plain address => address
  | detailed address _ _ => address

/-- An endpoint: connections that relay one stream between each other. -/
structure EndpointConfig where
  applicationName : String := ""
  streamName : String := ""
  role : ConnectionRole
  direction : Direction
  addresses : List AddressConfig
  video : Bool := true
  audio : Bool := true
  data : Bool := true
  /-- Keys of data frames that are not relayed. -/
  metadataBlacklist : List String := []
  /-- Seconds after which a call that has not come through is given up. -/
  connectionTimeout : Single := .ofNat 5
  /-- Seconds between a failure and the next attempt. -/
  reconnectInterval : Single := .ofNat 5
  /-- Attempts between two established links; zero sets no limit. -/
  reconnectCount : Nat := 0
  pingInterval : Single := .ofNat 60
  /-- The most bytes that one read takes. -/
  bufferSize : Nat := 3000
  amfVersion : Option AmfVersion := none
  listenMode : ListenMode := .persistent
  /-- The most frames that wait for one sink. -/
  queueCapacity : Nat := 512
  codec : CodecKind := .raw
  deriving DecidableEq

/-- The settings of one connection, with nothing left to look up. -/
structure ConnectionConfig where
  /-- The place of the address in the list of the endpoint. -/
  index : Nat
  address : String
  role : ConnectionRole
  direction : Direction
  connectionTimeout : Duration
  reconnectInterval : Duration
  reconnect : ReconnectPolicy
  pingInterval : Duration
  bufferSize : Nat
  amfVersion : Option AmfVersion
  listenMode : ListenMode
  codec : CodecKind
  deriving DecidableEq

/-- Whether the connection ends when its first peer has left. -/
def ConnectionConfig.isSingleShot (config : ConnectionConfig) : Bool :=
  config.role == .host && config.listenMode == .singleShot

namespace EndpointConfig

def reconnectPolicy (config : EndpointConfig) : ReconnectPolicy := .ofCount config.reconnectCount

/-- The role of the connection of an entry. -/
def roleOf (config : EndpointConfig) : AddressConfig → ConnectionRole
  | .plain _ => config.role
  | .detailed _ role _ => role.getD config.role

/-- The direction of the connection of an entry. -/
def directionOf (config : EndpointConfig) : AddressConfig → Direction
  | .plain _ => config.direction
  | .detailed _ _ direction => direction.getD config.direction

/-- The connection of an entry that stands at `index`. -/
def connection (config : EndpointConfig) (entry : AddressConfig) (index : Nat) :
    ConnectionConfig where
  index := index
  address := entry.address
  role := config.roleOf entry
  direction := config.directionOf entry
  connectionTimeout := .saturating config.connectionTimeout
  reconnectInterval := .saturating config.reconnectInterval
  reconnect := config.reconnectPolicy
  pingInterval := .saturating config.pingInterval
  bufferSize := config.bufferSize
  amfVersion := config.amfVersion
  listenMode := config.listenMode
  codec := config.codec

/-- One connection for every address, in their order. -/
def connections (config : EndpointConfig) : List ConnectionConfig :=
  config.addresses.mapIdx fun index entry => config.connection entry index

end EndpointConfig

/-- How much is logged. -/
inductive LogLevel where
  | off
  | error
  | warn
  | info
  | debug
  | trace
  deriving DecidableEq

namespace LogLevel

/-- The levels by the number that a configuration gives; larger numbers mean `trace`. -/
def ofNumber : Nat → LogLevel
  | 0 => off
  | 1 => error
  | 2 => warn
  | 3 => info
  | 4 => debug
  | _ => trace

def number : LogLevel → Nat
  | off => 0
  | error => 1
  | warn => 2
  | info => 3
  | debug => 4
  | trace => 5

def name : LogLevel → String
  | off => "off"
  | error => "error"
  | warn => "warn"
  | info => "info"
  | debug => "debug"
  | trace => "trace"

end LogLevel

structure LogConfig where
  level : Nat := 3
  syslogIdent : Option String := none
  syslogFacility : Option String := none
  deriving DecidableEq

def LogConfig.filter (config : LogConfig) : LogLevel := .ofNumber config.level

structure StatusPageConfig where
  address : Option String := none
  deriving DecidableEq

structure ServerConfig where
  endpoints : List EndpointConfig := []
  deriving DecidableEq

/-- The configuration of a relay. -/
structure Config where
  log : LogConfig := {}
  statusPage : StatusPageConfig := {}
  /-- Seconds after which the relay stops by itself. -/
  timeout : Option Single := none
  servers : List ServerConfig := []
  deriving DecidableEq

namespace Config

def runTimeout (config : Config) : Option Duration := config.timeout.map .saturating

/-- All endpoints in order, each with the place of its server. -/
def endpoints (config : Config) : List (Nat × EndpointConfig) :=
  (config.servers.mapIdx fun index server => server.endpoints.map (index, ·)).flatten

end Config

end LiveRelay
