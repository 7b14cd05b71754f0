import Mathlib.Tactic.Common
import LiveRelay.Relay.Basic

/-! # Every component has a path of its own

Names and addresses stand in paths as they are, with whatever characters are in them, and
still no two components of a relay have the same path. The place of a component comes before
its name, and a number ends where its digits do.
-/

namespace LiveRelay

namespace ComponentPath

/-! ## How paths are spelled -/

/-- A number and what follows it can be told apart, unless a digit follows. -/
theorem digits_append_inj {i j : Nat} {first second : List Char}
    (hfirst : first.head?.any Char.isDigit = false)
    (hsecond : second.head?.any Char.isDigit = false)
    (h : Nat.toDigits 10 i ++ first = Nat.toDigits 10 j ++ second) : i = j ∧ first = second := by
  have htake : ∀ (n : Nat) (rest : List Char), rest.head?.any Char.isDigit = false →
      (Nat.toDigits 10 n ++ rest).takeWhile Char.isDigit = Nat.toDigits 10 n := by
    intro n rest hrest
    have hdigits : ∀ c ∈ Nat.toDigits 10 n, c.isDigit = true :=
      fun c hc => Nat.isDigit_of_mem_toDigits (by decide) (by decide) hc
    rw [List.takeWhile_append_of_pos hdigits]
    cases rest with
    | nil => simp
    | cons c rest => simp_all
  have hdigits : Nat.toDigits 10 i = Nat.toDigits 10 j := by
    rw [← htake i first hfirst, h, htake j second hsecond]
  constructor
  · rw [← Nat.ofDigitChars_ten_toDigits (n := i), hdigits, Nat.ofDigitChars_ten_toDigits]
  · rw [hdigits] at h
    exact List.append_cancel_left h

/-- How the segment of an endpoint ends, behind its place. -/
def closing (config : EndpointConfig) : List Char :=
  if config.applicationName.isEmpty ∧ config.streamName.isEmpty then [']']
  else ':' :: (config.applicationName.toList ++ '/' :: (config.streamName.toList ++ [']']))

theorem toList_server (path : ComponentPath) (index : Nat) :
    (path.server index).text.toList =
      path.text.toList ++ ("/server[".toList ++ (Nat.toDigits 10 index ++ [']'])) := by
  simp [server, child, toString]

theorem toList_endpoint (path : ComponentPath) (index : Nat) (config : EndpointConfig) :
    (path.endpoint index config).text.toList =
      path.text.toList ++ ("/endpoint[".toList ++ (Nat.toDigits 10 index ++ closing config)) := by
  unfold endpoint closing
  split_ifs <;> simp [child, toString]

theorem toList_connection (path : ComponentPath) (config : ConnectionConfig) :
    (path.connection config).text.toList =
      path.text.toList ++ ("/connection[".toList ++
        (Nat.toDigits 10 config.index ++ ':' :: (config.address.toList ++ [']']))) := by
  simp [connection, child, toString]

end ComponentPath

namespace Relay

/-! ## The tree of a configuration -/

/-- The path of a part of the tree. -/
def componentPath? (relay : Relay) : Component → Option ComponentPath
  | .group group => relay.pathOf? group
  | .connection id => (relay.connection? id).map Connection.path

/-- No two parts of the tree have the same path. -/
def HasOwnPaths (relay : Relay) : Prop :=
  ∀ first second path, relay.componentPath? first = some path →
    relay.componentPath? second = some path → first = second

variable {config : Config}

/-- The settings of an endpoint. -/
def endpointConfig? (config : Config) (server endpoint : Nat) : Option EndpointConfig :=
  config.servers[server]?.bind (·.endpoints[endpoint]?)

theorem server?_ofConfig (config : Config) (server : Nat) :
    (ofConfig config).server? server = config.servers[server]?.map (Server.ofConfig path server) :=
  List.getElem?_mapIdx

theorem endpoint?_ofConfig (config : Config) (server endpoint : Nat) :
    (ofConfig config).endpoint? server endpoint =
      (endpointConfig? config server endpoint).map
        (Endpoint.ofConfig (path.server server) endpoint) := by
  rw [endpoint?, server?_ofConfig, endpointConfig?]
  cases config.servers[server]? with
  | none => rfl
  | some value => exact List.getElem?_mapIdx

theorem connection?_ofConfig {id : ConnectionId} {connection : Connection}
    (h : (ofConfig config).connection? id = some connection) :
    ∃ settings framePath above, endpointConfig? config id.server id.endpoint = some above ∧
      settings.index = id.index ∧
      connection = .ofConfig ((path.server id.server).endpoint id.endpoint above) settings
        framePath := by
  rw [connection?, endpoint?_ofConfig] at h
  obtain ⟨endpoint, hendpoint, hconnection⟩ := Option.bind_eq_some_iff.mp h
  obtain ⟨above, habove, rfl⟩ := Option.map_eq_some_iff.mp hendpoint
  obtain ⟨hlt, rfl⟩ := List.getElem?_eq_some_iff.mp hconnection
  simp only [Endpoint.ofConfig, List.getElem_zipWith, EndpointConfig.connections,
    List.getElem_mapIdx]
  exact ⟨_, _, above, habove, rfl, rfl⟩

/-- What stands behind the place of an endpoint in its segment. -/
def closingAt (config : Config) (server endpoint : Nat) : List Char :=
  ((endpointConfig? config server endpoint).map ComponentPath.closing).getD []

theorem head_closingAt (config : Config) (server endpoint : Nat) {rest : List Char}
    (h : rest.head?.any Char.isDigit = false) :
    (closingAt config server endpoint ++ rest).head?.any Char.isDigit = false := by
  unfold closingAt ComponentPath.closing
  cases endpointConfig? config server endpoint with
  | none => exact h
  | some above =>
      simp only [Option.map_some, Option.getD_some]
      split_ifs <;> rfl

/-- How the path of a part of the tree is spelled. -/
inductive Spelled (config : Config) : Component → List Char → Prop
  | relay : Spelled config (.group .relay) "relay".toList
  | server (server : Nat) :
      Spelled config (.group (.server server))
        ("relay/server[".toList ++ (Nat.toDigits 10 server ++ [']']))
  | endpoint (server endpoint : Nat) :
      Spelled config (.group (.endpoint server endpoint))
        ("relay/server[".toList ++ (Nat.toDigits 10 server ++ ("]/endpoint[".toList ++
          (Nat.toDigits 10 endpoint ++ closingAt config server endpoint))))
  | connection (id : ConnectionId) (address : List Char) :
      Spelled config (.connection id)
        ("relay/server[".toList ++ (Nat.toDigits 10 id.server ++ ("]/endpoint[".toList ++
          (Nat.toDigits 10 id.endpoint ++ (closingAt config id.server id.endpoint ++
            ("/connection[".toList ++ (Nat.toDigits 10 id.index ++ ':' :: address)))))))

theorem toList_server (server : Nat) : (path.server server).text.toList =
    "relay/server[".toList ++ (Nat.toDigits 10 server ++ [']']) :=
  (ComponentPath.toList_server path server).trans (List.append_assoc ..).symm

theorem toList_endpoint {server endpoint : Nat} {above : EndpointConfig}
    (h : endpointConfig? config server endpoint = some above) :
    ((path.server server).endpoint endpoint above).text.toList =
      "relay/server[".toList ++ (Nat.toDigits 10 server ++ ("]/endpoint[".toList ++
        (Nat.toDigits 10 endpoint ++ closingAt config server endpoint))) := by
  rw [ComponentPath.toList_endpoint, toList_server, closingAt, h]
  simp

theorem spelled_componentPath? {component : Component} {path : ComponentPath}
    (h : (ofConfig config).componentPath? component = some path) :
    Spelled config component path.text.toList := by
  cases component with
  | connection id =>
      obtain ⟨connection, hconnection, rfl⟩ := Option.map_eq_some_iff.mp h
      obtain ⟨settings, framePath, above, habove, hindex, rfl⟩ := connection?_ofConfig hconnection
      simp only [Connection.ofConfig, ComponentPath.toList_connection, toList_endpoint habove,
        hindex, List.append_assoc]
      exact .connection id _
  | group group =>
      cases group with
      | relay =>
          obtain rfl := Option.some.inj h
          exact .relay
      | server server =>
          obtain ⟨value, hvalue, rfl⟩ := Option.map_eq_some_iff.mp h
          rw [server?_ofConfig] at hvalue
          obtain ⟨above, -, rfl⟩ := Option.map_eq_some_iff.mp hvalue
          simp only [Server.ofConfig, toList_server]
          exact .server server
      | endpoint server endpoint =>
          obtain ⟨value, hvalue, rfl⟩ := Option.map_eq_some_iff.mp h
          rw [endpoint?_ofConfig] at hvalue
          obtain ⟨above, habove, rfl⟩ := Option.map_eq_some_iff.mp hvalue
          simp only [Endpoint.ofConfig, toList_endpoint habove]
          exact .endpoint server endpoint

/-- A number behind the same words can be read off, and what follows it. -/
theorem peel {words : List Char} {i j : Nat} {first second : List Char}
    (hfirst : first.head?.any Char.isDigit = false)
    (hsecond : second.head?.any Char.isDigit = false)
    (h : words ++ (Nat.toDigits 10 i ++ first) = words ++ (Nat.toDigits 10 j ++ second)) :
    i = j ∧ first = second :=
  ComponentPath.digits_append_inj hfirst hsecond (List.append_cancel_left h)

/-- A spelling shows of which part of the tree it is: the numbers can be read off it from the
front, and the name of an endpoint is known once its place is. -/
theorem Spelled.inj {first second : Component} {chars : List Char}
    (hfirst : Spelled config first chars) (hsecond : Spelled config second chars) :
    first = second := by
  have hclosing : ∀ server endpoint,
      (closingAt config server endpoint).head?.any Char.isDigit = false := by
    intro server endpoint
    have hclosing := head_closingAt config server endpoint
      (show ([] : List Char).head?.any Char.isDigit = false from rfl)
    simpa using hclosing
  generalize hchars : chars = chars' at hsecond
  cases hfirst with
  | relay =>
      cases hsecond with
      | relay => rfl
      | server => simp at hchars
      | endpoint => simp at hchars
      | connection => simp at hchars
  | server server =>
      cases hsecond with
      | relay => simp at hchars
      | server server' =>
          obtain ⟨rfl, -⟩ := peel rfl rfl hchars
          rfl
      | endpoint server' endpoint' => simpa using (peel rfl rfl hchars).2
      | connection id' address' => simpa using (peel rfl rfl hchars).2
  | endpoint server endpoint =>
      cases hsecond with
      | relay => simp at hchars
      | server server' => simpa using (peel rfl rfl hchars).2
      | endpoint server' endpoint' =>
          obtain ⟨rfl, hrest⟩ := peel rfl rfl hchars
          obtain ⟨rfl, -⟩ := peel (hclosing _ _) (hclosing _ _) hrest
          rfl
      | connection id' address' =>
          obtain ⟨rfl, hrest⟩ := peel rfl rfl hchars
          obtain ⟨rfl, hlast⟩ := peel (hclosing _ _) (head_closingAt _ _ _ rfl) hrest
          simp at hlast
  | connection id address =>
      cases hsecond with
      | relay => simp at hchars
      | server server' => simpa using (peel rfl rfl hchars).2
      | endpoint server' endpoint' =>
          obtain ⟨rfl, hrest⟩ := peel rfl rfl hchars
          obtain ⟨rfl, hlast⟩ := peel (head_closingAt _ _ _ rfl) (hclosing _ _) hrest
          simp at hlast
      | connection id' address' =>
          obtain ⟨server, endpoint, index⟩ := id
          obtain ⟨server', endpoint', index'⟩ := id'
          obtain ⟨rfl, hrest⟩ := peel rfl rfl hchars
          obtain ⟨rfl, hlast⟩ := peel (head_closingAt _ _ _ rfl) (head_closingAt _ _ _ rfl) hrest
          obtain ⟨rfl, -⟩ := peel rfl rfl (List.append_cancel_left hlast)
          rfl

/-- Whatever the names and the addresses are, the parts of the tree have different paths. -/
theorem ofConfig_hasOwnPaths (config : Config) : (ofConfig config).HasOwnPaths := by
  intro first second path hfirst hsecond
  exact (spelled_componentPath? hfirst).inj (spelled_componentPath? hsecond)

end Relay

end LiveRelay
