import LiveRelay.Config.Basic
import LiveRelay.SocketAddress
import LiveRelay.Text.Blank

/-! # Which configurations can be built

`Config.faults` lists everything that is wrong with a configuration, in the order of
the tree, and a configuration is valid when the list is empty. The faults of an
endpoint itself come before the listen addresses that it shares with hosts seen before.
-/

namespace LiveRelay

/-- What is wrong with an endpoint by itself. -/
inductive EndpointFault where
  | noAddresses
  | emptyAddress
  | bufferSize
  | queueCapacity
  | connectionTimeout
  | reconnectInterval
  | pingInterval
  deriving DecidableEq

/-- What is wrong with a configuration. -/
inductive ConfigFault where
  | timeout
  /-- The endpoint of this name has a fault. -/
  | endpoint (name : String) (fault : EndpointFault)
  /-- A second host listens on the address. -/
  | sharedAddress (server : Nat) (address : String)
  deriving DecidableEq

namespace EndpointFault

def message (name : String) : EndpointFault → String
  | noAddresses => s!"endpoint {name} has no addresses"
  | emptyAddress => s!"endpoint {name} has an empty address"
  | bufferSize => s!"endpoint {name}: bufferSize must be positive"
  | queueCapacity => s!"endpoint {name}: queueCapacity must be positive"
  | connectionTimeout =>
      s!"endpoint {name}: connectionTimeout must be a positive number of seconds"
  | reconnectInterval =>
      s!"endpoint {name}: reconnectInterval must be a non-negative number of seconds"
  | pingInterval => s!"endpoint {name}: pingInterval must be a non-negative number of seconds"

end EndpointFault

def ConfigFault.message : ConfigFault → String
  | timeout => "timeout must be a positive number of seconds"
  | endpoint name fault => fault.message name
  | sharedAddress server address =>
      s!"server {server}: {address} is listened on by more than one host connection"

/-- Whether a number of seconds is the length of some span of time above zero. -/
def Single.isPositiveSpan (seconds : Single) : Bool :=
  (Duration.ofSeconds? seconds).isSome && seconds.isPositive

/-- Whether a number of seconds is the length of some span of time. -/
def Single.isSpan (seconds : Single) : Bool :=
  (Duration.ofSeconds? seconds).isSome && seconds.isNonnegative

namespace EndpointConfig

/-- The name of an endpoint in messages: its stream, or else its first address. -/
def displayName (config : EndpointConfig) : String :=
  if config.applicationName.isEmpty ∧ config.streamName.isEmpty then
    "at " ++ (config.addresses.head?.map AddressConfig.address).getD "?"
  else s!"{config.applicationName}/{config.streamName}"

/-- What is wrong with the endpoint by itself, in the order of the checks. -/
def faults (config : EndpointConfig) : List EndpointFault :=
  let require (holds : Bool) (fault : EndpointFault) : List EndpointFault :=
    if holds then [] else [fault]
  require (!config.addresses.isEmpty) .noAddresses
    ++ require (!config.addresses.any (Text.isBlankText ·.address)) .emptyAddress
    ++ require (config.bufferSize != 0) .bufferSize
    ++ require (config.queueCapacity != 0) .queueCapacity
    ++ require config.connectionTimeout.isPositiveSpan .connectionTimeout
    ++ require config.reconnectInterval.isSpan .reconnectInterval
    ++ require config.pingInterval.isSpan .pingInterval

/-- The first fault of the endpoint by itself. -/
def validate (config : EndpointConfig) : Except ConfigFault Unit :=
  match config.faults with
  | [] => .ok ()
  | fault :: _ => .error (.endpoint config.displayName fault)

end EndpointConfig

/-- What two listening hosts must not share: the socket address, or the text of an
address that is none, without regard to ASCII case. -/
inductive ListenKey where
  | socket (address : SocketAddress)
  | name (text : String)
  deriving DecidableEq

namespace ListenKey

def ofAddress (address : String) : ListenKey :=
  match SocketAddress.parse? address with
  | some parsed => .socket parsed
  | none => .name (address.map Char.toLower)

/-- Whether a free port is chosen when the address is bound, so that nothing clashes. -/
def isEphemeral : ListenKey → Bool
  | socket address => address.port == 0
  | name _ => false

end ListenKey

/-- The key that a connection claims, if it listens on a fixed address. -/
def ConnectionConfig.listenKey? (config : ConnectionConfig) : Option ListenKey :=
  let key := ListenKey.ofAddress config.address
  if config.role = .host ∧ !key.isEphemeral then some key else none

namespace Config

/-- The connections that claim a key already taken, by `taken` or by one before them. -/
def clashes (server : Nat) : (taken : List ListenKey) → List ConnectionConfig → List ConfigFault
  | _, [] => []
  | taken, connection :: rest =>
      match connection.listenKey? with
      | none => clashes server taken rest
      | some key =>
          if key ∈ taken then
            .sharedAddress server connection.address :: clashes server taken rest
          else clashes server (key :: taken) rest

/-- The faults of endpoints, when the keys in `taken` belong to earlier ones. -/
def endpointFaults : (taken : List ListenKey) → List (Nat × EndpointConfig) → List ConfigFault
  | _, [] => []
  | taken, (server, endpoint) :: rest =>
      endpoint.faults.map (.endpoint endpoint.displayName)
        ++ clashes server taken endpoint.connections
        ++ endpointFaults (endpoint.connections.filterMap (·.listenKey?) ++ taken) rest

/-- Everything that is wrong with the configuration, in the order of the tree. -/
def faults (config : Config) : List ConfigFault :=
  (if config.timeout.all Single.isPositiveSpan then [] else [.timeout])
    ++ endpointFaults [] config.endpoints

/-- The first fault, if the relay cannot be built. -/
def validate (config : Config) : Except ConfigFault Unit :=
  match config.faults with
  | [] => .ok ()
  | fault :: _ => .error fault

end Config

end LiveRelay
