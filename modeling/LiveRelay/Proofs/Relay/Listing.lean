import LiveRelay.Proofs.Relay.Projection
import LiveRelay.Relay.Status

/-! # The status of the connections

The status of a relay lists the connections in the order of the tree. Part of what it says of a
connection comes from the configuration: its path and its address, its role and direction, and
whether frames can be dropped before it. No act of a connection touches that part, so the list
is the list of the configured addresses at any time (`listing_stepAll`).
-/

namespace LiveRelay

/-- What the status of a connection says about its configuration. -/
structure Listing where
  path : ComponentPath
  address : String
  role : ConnectionRole
  direction : Direction
  /-- Whether dropped frames are counted. -/
  countsDrops : Bool
  deriving DecidableEq

def ConnectionStatus.listing (status : ConnectionStatus) : Listing where
  path := status.path
  address := status.address
  role := status.role
  direction := status.direction
  countsDrops := status.droppedFrames.isSome

/-- Whether frames go from a queue to the peer. -/
def FramePath.isDeliver : FramePath → Bool
  | publish => false
  | deliver _ => true

def Connection.listing (connection : Connection) : Listing where
  path := connection.path
  address := connection.config.address
  role := connection.config.role
  direction := connection.config.direction
  countsDrops := connection.framePath.isDeliver

theorem Connection.listing_status (connection : Connection) (fanOut : FanOut) :
    (connection.status fanOut).listing = connection.listing := by
  unfold ConnectionStatus.listing Connection.listing Connection.status
  cases connection.framePath <;> rfl

/-- An act of a connection leaves its listing as it is. -/
theorem Connection.listing_act {connection : Connection} (h : connection.Coherent)
    (fanOut : FanOut) (act : Act) :
    (connection.act fanOut act).connection.listing = connection.listing := by
  obtain ⟨_, _, -, hgoes⟩ := connection.act_takesCourse h fanOut act
  unfold Connection.listing
  rw [(connection.act_passes fanOut act).path_eq, hgoes.config_eq, hgoes.framePath_eq]

/-- An address of a configuration: the place of its connection in the tree, the settings of the
endpoint around it, and the entry itself. -/
structure Entry where
  id : ConnectionId
  endpoint : EndpointConfig
  address : AddressConfig

namespace Entry

/-- The settings of the connection. -/
def settings (entry : Entry) : ConnectionConfig :=
  entry.endpoint.connection entry.address entry.id.index

def path (entry : Entry) : ComponentPath :=
  ((Relay.path.server entry.id.server).endpoint entry.id.endpoint entry.endpoint).connection
    entry.settings

def listing (entry : Entry) : Listing where
  path := entry.path
  address := entry.address.address
  role := entry.endpoint.roleOf entry.address
  direction := entry.endpoint.directionOf entry.address
  countsDrops := entry.endpoint.directionOf entry.address = .output

end Entry

/-- The addresses of an endpoint in their order. -/
def EndpointConfig.entries (config : EndpointConfig) (server endpoint : Nat) : List Entry :=
  config.addresses.mapIdx fun index address => ⟨⟨server, endpoint, index⟩, config, address⟩

/-- The addresses of a server, endpoint by endpoint. -/
def ServerConfig.entries (config : ServerConfig) (server : Nat) : List Entry :=
  (config.endpoints.mapIdx fun endpoint settings => settings.entries server endpoint).flatten

/-- The addresses of a configuration, server by server. -/
def Config.entries (config : Config) : List Entry :=
  (config.servers.mapIdx fun server settings => settings.entries server).flatten

/-! ## The list does not change -/

/-- The listings of the connections of an endpoint. -/
def Endpoint.listings (endpoint : Endpoint) : List Listing :=
  endpoint.connections.map Connection.listing

def Server.listings (server : Server) : List Listing := server.endpoints.flatMap Endpoint.listings

def Relay.listings (relay : Relay) : List Listing := relay.servers.flatMap Server.listings

theorem Endpoint.map_listing (endpoint : Endpoint) :
    endpoint.status.connections.map ConnectionStatus.listing = endpoint.listings := by
  rw [Endpoint.status, List.map_map, Endpoint.listings]
  apply List.map_congr_left
  exact fun connection _ => connection.listing_status endpoint.fanOut

/-- The status of a relay lists its connections in the order of the tree. -/
theorem Relay.map_listing (relay : Relay) :
    relay.status.connections.map ConnectionStatus.listing = relay.listings := by
  rw [RelayStatus.connections, Relay.status, List.flatMap_map, List.map_flatMap, Relay.listings]
  congr 1
  funext server
  rw [Server.status, List.flatMap_map, List.map_flatMap, Server.listings]
  congr 1
  funext endpoint
  exact endpoint.map_listing

/-- An element is put in the place of one with the same image. -/
theorem map_set_of_same {α β : Type} {f : α → β} {values : List α} {index : Nat} {old value : α}
    (hget : values[index]? = some old) (hsame : f value = f old) :
    (values.set index value).map f = values.map f := by
  obtain ⟨hlt, rfl⟩ := List.getElem?_eq_some_iff.mp hget
  have hlt : index < (values.map f).length := by rwa [List.length_map]
  have himage : f value = (values.map f)[index] := by rw [hsame, List.getElem_map]
  rw [List.map_set, himage]
  exact List.set_getElem_self hlt

/-- A step of one of its connections leaves the listings of an endpoint as they are. -/
theorem Endpoint.listings_after {endpoint : Endpoint} {index : Nat} {connection : Connection}
    (hget : endpoint.connections[index]? = some connection) {turn : Turn}
    (hsame : turn.connection.listing = connection.listing) :
    (endpoint.after index turn).listings = endpoint.listings :=
  map_set_of_same hget hsame

theorem Server.listings_set {server : Server} {index : Nat} {old value : Endpoint}
    (hget : server.endpoints[index]? = some old) (hsame : value.listings = old.listings) :
    Server.listings { server with endpoints := server.endpoints.set index value } =
      server.listings :=
  congrArg List.flatten (map_set_of_same hget hsame)

namespace Relay

variable {relay : Relay} {config : Config}

theorem listings_congr {before after : Relay} (h : after.servers = before.servers) :
    after.listings = before.listings := congrArg (List.flatMap Server.listings) h

/-- An endpoint is put in the place of one with the same listings. -/
theorem listings_setEndpoint {server endpoint : Nat} {old value : Endpoint}
    (h : relay.endpoint? server endpoint = some old) (hsame : value.listings = old.listings) :
    (relay.setEndpoint server endpoint value).listings = relay.listings := by
  obtain ⟨parent, hparent, hold⟩ := Option.bind_eq_some_iff.mp h
  apply congrArg List.flatten
  apply List.ext_getElem?
  intro place
  have hset := server?_setEndpoint relay server endpoint value place
  rw [server?, server?] at hset
  rw [List.getElem?_map, hset, List.getElem?_map, Option.map_map]
  by_cases hplace : place = server
  · subst hplace
    have hget : relay.servers[place]? = some parent := hparent
    rw [hget]
    simp only [Option.map_some, Function.comp_apply, if_true]
    exact congrArg some (Server.listings_set hold hsame)
  · simp only [hplace, if_false]
    rfl

theorem listings_act (h : relay.IsSound) (id : ConnectionId) (act : Act) :
    (relay.act id act).relay.listings = relay.listings := by
  unfold Relay.act stepConnection
  split
  next => rfl
  next endpoint hendpoint =>
    split
    next => rfl
    next connection hget =>
      have hconnection : relay.connection? id = some connection :=
        Option.bind_eq_some_iff.mpr ⟨endpoint, hendpoint, hget⟩
      have hcoherent := h.coherent hconnection
      apply listings_setEndpoint hendpoint
      exact Endpoint.listings_after hget (Connection.listing_act hcoherent endpoint.fanOut act)

theorem listings_closeFanOut (relay : Relay) (server endpoint : Nat) :
    (relay.closeFanOut server endpoint).listings = relay.listings := by
  unfold closeFanOut
  split
  next => rfl
  next value hvalue => exact listings_setEndpoint hvalue rfl

theorem Deed.listings_eq {move : Move} {change : Change} (h : Deed relay move change)
    (hsound : relay.IsSound) : change.relay.listings = relay.listings := by
  cases h with
  | notes => rfl
  | cancels token => exact listings_congr (servers_cancel _ _)
  | closesFanOut server endpoint => exact listings_closeFanOut relay server endpoint
  | signals => exact listings_act hsound _ _
  | closes => exact listings_act hsound _ _
  | runs => rfl
  | settles => rfl
  | @begins _ place id token =>
      have hacts := listings_act hsound id (.run token (relay.isCancelled token))
      exact hacts
  | opens => rfl
  | ends => rfl

theorem listings_stepAll (h : relay.IsSound) (moves : List Move) :
    (relay.stepAll moves).relay.listings = relay.listings := by
  apply IsSound.stepAll_induction (motive := fun later _ => later.listings = relay.listings) h rfl
  intro _ before earlier next hsound hbefore hdeed
  exact (hdeed.listings_eq hsound).trans hbefore

end Relay

/-! ## The list of a configuration -/

/-- Exactly the connections that send have a queue. -/
theorem Endpoint.map_listing_zipWith (parent : ComponentPath) (next : Nat)
    (configs : List ConnectionConfig) :
    (List.zipWith (Connection.ofConfig parent) configs (framePaths next configs)).map
        Connection.listing =
      configs.map fun config => ⟨parent.connection config, config.address, config.role,
        config.direction, config.direction = .output⟩ := by
  induction configs generalizing next with
  | nil => rfl
  | cons config configs ih =>
      unfold framePaths
      cases hdirection : config.direction with
      | input =>
          rw [List.zipWith_cons_cons, List.map_cons, List.map_cons, ih]
          simp [Connection.listing, Connection.ofConfig, FramePath.isDeliver, hdirection]
      | output =>
          rw [List.zipWith_cons_cons, List.map_cons, List.map_cons, ih]
          simp [Connection.listing, Connection.ofConfig, FramePath.isDeliver, hdirection]

theorem map_mapIdx {α β γ : Type} (f : Nat → α → β) (g : β → γ) (values : List α) :
    (values.mapIdx f).map g = values.mapIdx fun index value => g (f index value) := by
  apply List.ext_getElem?
  intro index
  rw [List.getElem?_map, List.getElem?_mapIdx, List.getElem?_mapIdx, Option.map_map]
  rfl

theorem Endpoint.listings_ofConfig (server endpoint : Nat) (settings : EndpointConfig) :
    (Endpoint.ofConfig (Relay.path.server server) endpoint settings).listings =
      (settings.entries server endpoint).map Entry.listing := by
  rw [Endpoint.listings, Endpoint.ofConfig, Endpoint.map_listing_zipWith,
    EndpointConfig.connections, EndpointConfig.entries, map_mapIdx, map_mapIdx]
  rfl

theorem Server.listings_ofConfig (server : Nat) (settings : ServerConfig) :
    (Server.ofConfig Relay.path server settings).listings =
      (settings.entries server).map Entry.listing := by
  rw [Server.listings, Server.ofConfig, List.flatMap_def, map_mapIdx, ServerConfig.entries,
    List.map_flatten, map_mapIdx]
  congr 2
  funext endpoint above
  exact Endpoint.listings_ofConfig server endpoint above

theorem Relay.listings_ofConfig (config : Config) :
    (Relay.ofConfig config).listings = config.entries.map Entry.listing := by
  rw [Relay.listings, Relay.ofConfig, List.flatMap_def, map_mapIdx, Config.entries,
    List.map_flatten, map_mapIdx]
  congr 2
  funext server above
  exact Server.listings_ofConfig server above

/-- The status lists the configured addresses, whatever has happened. -/
theorem Relay.map_listing_stepAll (config : Config) (moves : List Move) :
    ((ofConfig config).stepAll moves).relay.status.connections.map ConnectionStatus.listing =
      config.entries.map Entry.listing := by
  rw [map_listing, listings_stepAll (ofConfig_isSound config), listings_ofConfig]

/-! ## The addresses and the connections of the tree -/

theorem EndpointConfig.mem_entries {settings : EndpointConfig} {server endpoint : Nat}
    {entry : Entry} :
    entry ∈ settings.entries server endpoint ↔
      entry.id.server = server ∧ entry.id.endpoint = endpoint ∧ entry.endpoint = settings ∧
        settings.addresses[entry.id.index]? = some entry.address := by
  rw [entries, List.mem_mapIdx]
  constructor
  · rintro ⟨index, hlt, rfl⟩
    exact ⟨rfl, rfl, rfl, List.getElem?_eq_getElem hlt⟩
  · obtain ⟨⟨_, _, index⟩, _, address⟩ := entry
    rintro ⟨rfl, rfl, rfl, haddress⟩
    obtain ⟨hlt, hget⟩ := List.getElem?_eq_some_iff.mp haddress
    exact ⟨index, hlt, congrArg (Entry.mk _ _) hget⟩

theorem ServerConfig.mem_entries {settings : ServerConfig} {server : Nat} {entry : Entry} :
    entry ∈ settings.entries server ↔
      entry.id.server = server ∧
        settings.endpoints[entry.id.endpoint]? = some entry.endpoint ∧
        entry.endpoint.addresses[entry.id.index]? = some entry.address := by
  rw [entries, List.mem_flatten]
  constructor
  · rintro ⟨_, hmem, hentry⟩
    obtain ⟨endpoint, hlt, rfl⟩ := List.mem_mapIdx.mp hmem
    obtain ⟨hserver, rfl, hendpoint, haddress⟩ := EndpointConfig.mem_entries.mp hentry
    rw [← hendpoint] at haddress
    exact ⟨hserver, List.getElem?_eq_some_iff.mpr ⟨hlt, hendpoint.symm⟩, haddress⟩
  · rintro ⟨hserver, hendpoint, haddress⟩
    obtain ⟨hlt, hget⟩ := List.getElem?_eq_some_iff.mp hendpoint
    refine ⟨_, List.mem_mapIdx.mpr ⟨entry.id.endpoint, hlt, rfl⟩, ?_⟩
    rw [EndpointConfig.mem_entries, hget]
    exact ⟨hserver, rfl, rfl, haddress⟩

/-- The addresses of a configuration are those at its places. -/
theorem Config.mem_entries {config : Config} {entry : Entry} :
    entry ∈ config.entries ↔
      Relay.endpointConfig? config entry.id.server entry.id.endpoint = some entry.endpoint ∧
        entry.endpoint.addresses[entry.id.index]? = some entry.address := by
  rw [entries, List.mem_flatten, Relay.endpointConfig?, Option.bind_eq_some_iff]
  constructor
  · rintro ⟨_, hmem, hentry⟩
    obtain ⟨server, hlt, rfl⟩ := List.mem_mapIdx.mp hmem
    obtain ⟨rfl, hendpoint, haddress⟩ := ServerConfig.mem_entries.mp hentry
    exact ⟨⟨_, List.getElem?_eq_getElem hlt, hendpoint⟩, haddress⟩
  · rintro ⟨⟨above, habove, hendpoint⟩, haddress⟩
    obtain ⟨hlt, rfl⟩ := List.getElem?_eq_some_iff.mp habove
    refine ⟨_, List.mem_mapIdx.mpr ⟨entry.id.server, hlt, rfl⟩, ?_⟩
    exact ServerConfig.mem_entries.mpr ⟨rfl, hendpoint, haddress⟩

/-- Which path a connection of the tree has. -/
theorem Relay.componentPath?_connection_ofConfig (config : Config) (id : ConnectionId) :
    (ofConfig config).componentPath? (.connection id) =
      (endpointConfig? config id.server id.endpoint).bind fun endpoint =>
        endpoint.addresses[id.index]?.map fun address => Entry.path ⟨id, endpoint, address⟩ := by
  rw [componentPath?, connection?, endpoint?_ofConfig]
  cases endpointConfig? config id.server id.endpoint with
  | none => rfl
  | some endpoint =>
      have hlistings := congrArg (fun listings => listings[id.index]?.map Listing.path)
        (Endpoint.listings_ofConfig id.server id.endpoint endpoint)
      simp only [Endpoint.listings, EndpointConfig.entries, List.getElem?_map,
        List.getElem?_mapIdx, Option.map_map] at hlistings
      exact hlistings

/-- The connections of the tree are those of the addresses. -/
theorem Relay.componentPath?_connection_iff {config : Config} {id : ConnectionId}
    {path : ComponentPath} :
    (ofConfig config).componentPath? (.connection id) = some path ↔
      ∃ entry ∈ config.entries, entry.id = id ∧ entry.path = path := by
  rw [componentPath?_connection_ofConfig, Option.bind_eq_some_iff]
  constructor
  · rintro ⟨endpoint, hendpoint, hpath⟩
    obtain ⟨address, haddress, rfl⟩ := Option.map_eq_some_iff.mp hpath
    exact ⟨⟨id, endpoint, address⟩, Config.mem_entries.mpr ⟨hendpoint, haddress⟩, rfl, rfl⟩
  · rintro ⟨entry, hentry, rfl, rfl⟩
    obtain ⟨hendpoint, haddress⟩ := Config.mem_entries.mp hentry
    exact ⟨entry.endpoint, hendpoint, Option.map_eq_some_iff.mpr ⟨entry.address, haddress, rfl⟩⟩

end LiveRelay
