import Mathlib.Data.List.Nodup
import LiveRelay.Proofs.Connection.Ending
import LiveRelay.Proofs.Endpoint.Traffic
import LiveRelay.Proofs.Relay.Paths
import LiveRelay.Relay.Step

/-! # What changes in the tree of a relay

Everything that happens in the tree is an act of one endpoint (`endpoint?_act`,
`endpoint?_closeFanOut`). It leaves all other endpoints alone, and it adds and renames
nothing: the parts of the tree and their paths are those of the configuration.
-/

namespace LiveRelay

/-- The group right above a part of the tree. -/
def Component.parent? : Component → Option Group
  | .group .relay => none
  | .group (.server _) => some .relay
  | .group (.endpoint server _) => some (.server server)
  | .connection id => some (.endpoint id.server id.endpoint)

namespace Endpoint

theorem path_act (endpoint : Endpoint) (act : EndpointAct) :
    (endpoint.act act).path = endpoint.path := by
  unfold Endpoint.act
  cases act with
  | closeFanOut => rfl
  | connection index act =>
      simp only []
      split <;> rfl

theorem connections_act (endpoint : Endpoint) (act : EndpointAct) (index : Nat) :
    (endpoint.act act).connections[index]?.map Connection.path =
      endpoint.connections[index]?.map Connection.path := by
  unfold Endpoint.act
  cases act with
  | closeFanOut => rfl
  | connection actor act =>
      simp only []
      split
      next => rfl
      next connection hconnection =>
        simp only [after, List.getElem?_set]
        split_ifs with hactor hlt
        · subst hactor
          rw [hconnection]
          exact congrArg some (connection.act_passes endpoint.fanOut act).path_eq
        · subst hactor
          rw [List.getElem?_eq_none (Nat.le_of_not_lt hlt)]
        · rfl

end Endpoint

namespace Relay

variable {relay : Relay}

/-! ## What only changes the tokens and the tasks -/

section Tasks

variable (relay : Relay) (token : Token)

@[simp] theorem servers_cancel : (relay.cancel token).servers = relay.servers := by
  unfold cancel
  split_ifs <;> rfl

@[simp] theorem hasRun_cancel : (relay.cancel token).hasRun = relay.hasRun := by
  unfold cancel
  split_ifs <;> rfl

@[simp] theorem tasks_cancel : (relay.cancel token).tasks = relay.tasks := by
  unfold cancel
  split_ifs <;> rfl

theorem isCancelled_cancel (other : Token) :
    (relay.cancel token).isCancelled other =
      (decide (other = token) || relay.isCancelled other) := by
  unfold cancel
  split_ifs with hcancelled
  · by_cases hother : other = token
    · subst hother
      simp [hcancelled]
    · simp [hother]
  · simp [isCancelled]

/-- The lookups in the tree are the same in a relay with the same servers. -/
theorem endpoint?_congr {before after : Relay} (h : after.servers = before.servers)
    (server endpoint : Nat) :
    after.endpoint? server endpoint = before.endpoint? server endpoint := by
  rw [endpoint?, endpoint?, server?, server?, h]

theorem connection?_congr {before after : Relay} (h : after.servers = before.servers)
    (id : ConnectionId) : after.connection? id = before.connection? id := by
  rw [connection?, connection?, endpoint?_congr h]

theorem getElem?_setPhase (place : Nat) (phase : TaskPhase) (other : Nat) :
    (relay.setPhase place phase).tasks[other]? =
      if other = place then relay.tasks[other]?.map fun task => { task with phase }
      else relay.tasks[other]? := by
  rw [setPhase, List.getElem?_modify]
  by_cases hother : other = place
  · simp [hother]
  · simp [hother, Ne.symm hother]

theorem getElem?_setPhase_self (place : Nat) (phase : TaskPhase) :
    (relay.setPhase place phase).tasks[place]? =
      relay.tasks[place]?.map fun task => { task with phase } := by
  rw [getElem?_setPhase, if_pos rfl]

theorem getElem?_setPhase_of_ne {place other : Nat} (h : other ≠ place) (phase : TaskPhase) :
    (relay.setPhase place phase).tasks[other]? = relay.tasks[other]? := by
  rw [getElem?_setPhase, if_neg h]

end Tasks

/-! ## Putting an endpoint in the place of another -/

theorem server?_setEndpoint (relay : Relay) (server endpoint : Nat) (value : Endpoint)
    (place : Nat) :
    (relay.setEndpoint server endpoint value).server? place =
      (relay.server? place).map fun old =>
        if place = server then { old with endpoints := old.endpoints.set endpoint value }
        else old := by
  simp only [server?, setEndpoint, List.getElem?_modify]
  by_cases hplace : place = server
  · subst hplace
    cases relay.servers[place]? <;> simp
  · cases relay.servers[place]? <;> simp [Ne.symm hplace, hplace]

theorem path_server?_setEndpoint (relay : Relay) (server endpoint : Nat) (value : Endpoint)
    (place : Nat) :
    ((relay.setEndpoint server endpoint value).server? place).map Server.path =
      (relay.server? place).map Server.path := by
  rw [server?_setEndpoint, Option.map_map]
  congr 1
  funext old
  simp only [Function.comp_apply]
  split_ifs <;> rfl

theorem endpoint?_setEndpoint {server endpoint : Nat} {old : Endpoint}
    (h : relay.endpoint? server endpoint = some old) (value : Endpoint) (server' endpoint' : Nat) :
    (relay.setEndpoint server endpoint value).endpoint? server' endpoint' =
      if server' = server ∧ endpoint' = endpoint then some value
      else relay.endpoint? server' endpoint' := by
  obtain ⟨parent, hparent, hold⟩ := Option.bind_eq_some_iff.mp h
  have hlt := (List.getElem?_eq_some_iff.mp hold).1
  rw [endpoint?, server?_setEndpoint]
  by_cases hserver : server' = server
  · subst hserver
    by_cases hendpoint : endpoint' = endpoint
    · subst hendpoint
      simp [hparent, hlt]
    · simp [hparent, endpoint?, hendpoint, Ne.symm hendpoint]
  · simp only [hserver, false_and, if_false, Option.map_id']
    rfl

/-! ## Acts of an endpoint -/

/-- Lets something happen to a connection. -/
def act (relay : Relay) (id : ConnectionId) (act : Act) : Change :=
  relay.stepConnection id fun connection fanOut => connection.act fanOut act

theorem stepConnection_of_none {id : ConnectionId} (h : relay.connection? id = none)
    (step : Connection → FanOut → Turn) : relay.stepConnection id step = ⟨relay, []⟩ := by
  rw [connection?] at h
  unfold stepConnection
  split
  next => rfl
  next endpoint hendpoint =>
    rw [hendpoint, Option.bind_some] at h
    rw [h]

/-- A step may depend on the connection that takes it. -/
theorem stepConnection_eq_act {id : ConnectionId} {connection : Connection} {act : Act}
    (h : relay.connection? id = some connection) {step : Connection → FanOut → Turn}
    (hstep : ∀ fanOut, step connection fanOut = connection.act fanOut act) :
    relay.stepConnection id step = relay.act id act := by
  obtain ⟨endpoint, hendpoint, hconnection⟩ := Option.bind_eq_some_iff.mp h
  simp only [Relay.act, stepConnection, hendpoint, hconnection, hstep]

theorem signal_eq_act {id : ConnectionId} {connection : Connection}
    (h : relay.connection? id = some connection) (signal : Signal) :
    relay.signal id signal = relay.act id (.poll (relay.interrupts connection) signal) := by
  have hact : relay.stepConnection id (fun connection fanOut =>
      connection.resume fanOut (relay.interrupts connection) signal) =
        relay.act id (.poll (relay.interrupts connection) signal) :=
    stepConnection_eq_act h fun _ => rfl
  exact hact

theorem endpoint?_act (relay : Relay) (id : ConnectionId) (act : Act) (server endpoint : Nat) :
    (relay.act id act).relay.endpoint? server endpoint =
      (relay.endpoint? server endpoint).map fun value =>
        if server = id.server ∧ endpoint = id.endpoint then
          value.act (.connection id.index act) else value := by
  unfold Relay.act stepConnection
  split
  next hnone =>
    by_cases hplace : server = id.server ∧ endpoint = id.endpoint
    · obtain ⟨rfl, rfl⟩ := hplace
      rw [hnone]
      rfl
    · simp only [if_neg hplace, Option.map_id']
  next value hvalue =>
    split
    next hnone =>
      by_cases hplace : server = id.server ∧ endpoint = id.endpoint
      · obtain ⟨rfl, rfl⟩ := hplace
        simp [hvalue, Endpoint.act, hnone]
      · simp only [if_neg hplace, Option.map_id']
    next connection hconnection =>
      simp only [endpoint?_setEndpoint hvalue]
      by_cases hplace : server = id.server ∧ endpoint = id.endpoint
      · obtain ⟨rfl, rfl⟩ := hplace
        simp [hvalue, Endpoint.act, hconnection]
      · simp only [if_neg hplace, Option.map_id']

theorem endpoint?_closeFanOut (relay : Relay) (server endpoint server' endpoint' : Nat) :
    (relay.closeFanOut server endpoint).endpoint? server' endpoint' =
      (relay.endpoint? server' endpoint').map fun value =>
        if server' = server ∧ endpoint' = endpoint then value.act .closeFanOut else value := by
  unfold closeFanOut
  split
  next hnone =>
    by_cases hplace : server' = server ∧ endpoint' = endpoint
    · obtain ⟨rfl, rfl⟩ := hplace
      rw [hnone]
      rfl
    · simp only [if_neg hplace, Option.map_id']
  next value hvalue =>
    rw [endpoint?_setEndpoint hvalue]
    by_cases hplace : server' = server ∧ endpoint' = endpoint
    · obtain ⟨rfl, rfl⟩ := hplace
      simp [hvalue, Endpoint.act]
    · simp only [if_neg hplace, Option.map_id']

@[simp] theorem tasks_act (relay : Relay) (id : ConnectionId) (act : Act) :
    (relay.act id act).relay.tasks = relay.tasks := by
  unfold Relay.act stepConnection
  split
  next => rfl
  next => split <;> rfl

@[simp] theorem hasRun_act (relay : Relay) (id : ConnectionId) (act : Act) :
    (relay.act id act).relay.hasRun = relay.hasRun := by
  unfold Relay.act stepConnection
  split
  next => rfl
  next => split <;> rfl

@[simp] theorem cancelled_act (relay : Relay) (id : ConnectionId) (act : Act) :
    (relay.act id act).relay.cancelled = relay.cancelled := by
  unfold Relay.act stepConnection
  split
  next => rfl
  next => split <;> rfl

@[simp] theorem tasks_closeFanOut (relay : Relay) (server endpoint : Nat) :
    (relay.closeFanOut server endpoint).tasks = relay.tasks := by
  unfold closeFanOut
  split <;> rfl

@[simp] theorem hasRun_closeFanOut (relay : Relay) (server endpoint : Nat) :
    (relay.closeFanOut server endpoint).hasRun = relay.hasRun := by
  unfold closeFanOut
  split <;> rfl

@[simp] theorem cancelled_closeFanOut (relay : Relay) (server endpoint : Nat) :
    (relay.closeFanOut server endpoint).cancelled = relay.cancelled := by
  unfold closeFanOut
  split <;> rfl

theorem act_of_none {id : ConnectionId} (h : relay.connection? id = none) (act : Act) :
    relay.act id act = ⟨relay, []⟩ := stepConnection_of_none h _

/-- What an act comes to, for the connection whose act it is. -/
theorem act_of_some {id : ConnectionId} {connection : Connection}
    (h : relay.connection? id = some connection) (act : Act) :
    ∃ fanOut, (relay.endpoint? id.server id.endpoint).map Endpoint.fanOut = some fanOut ∧
      (relay.act id act).occurrences = (connection.act fanOut act).occurrences id ∧
      (relay.act id act).relay.connection? id = some (connection.act fanOut act).connection ∧
      ((relay.act id act).relay.endpoint? id.server id.endpoint).map Endpoint.fanOut =
        some (connection.act fanOut act).fanOut := by
  obtain ⟨endpoint, hendpoint, hconnection⟩ := Option.bind_eq_some_iff.mp h
  obtain ⟨hlt, hget⟩ := List.getElem?_eq_some_iff.mp hconnection
  refine ⟨endpoint.fanOut, by rw [hendpoint]; rfl, ?_, ?_, ?_⟩
  · simp only [Relay.act, stepConnection, hendpoint, hconnection]
  · rw [connection?, endpoint?_act, hendpoint]
    simp [Endpoint.act, Endpoint.after, hlt, hget]
  · rw [endpoint?_act, hendpoint]
    simp [Endpoint.act, Endpoint.after, hlt, hget]

theorem connection?_act_of_ne {id id' : ConnectionId} (h : id' ≠ id) (relay : Relay) (act : Act) :
    (relay.act id act).relay.connection? id' = relay.connection? id' := by
  rw [connection?, endpoint?_act, connection?]
  cases hendpoint : relay.endpoint? id'.server id'.endpoint with
  | none => rfl
  | some endpoint =>
      simp only [Option.map_some, Option.bind_some]
      split_ifs with hplace
      · have hindex : id'.index ≠ id.index := by
          intro hindex
          apply h
          cases id
          cases id'
          simp_all
        simp only [Endpoint.act]
        split
        next => rfl
        next => simp [Endpoint.after, Ne.symm hindex]
      · rfl

@[simp] theorem connection?_closeFanOut (relay : Relay) (server endpoint : Nat)
    (id : ConnectionId) :
    (relay.closeFanOut server endpoint).connection? id = relay.connection? id := by
  rw [connection?, endpoint?_closeFanOut, connection?]
  cases relay.endpoint? id.server id.endpoint with
  | none => rfl
  | some value =>
      simp only [Option.map_some, Option.bind_some]
      split_ifs <;> rfl

/-! ## The parts of the tree -/

/-- In the tree nothing has changed, or what an act of one endpoint changes. -/
inductive TreeStep (before after : Relay) : Prop
  | rests (hservers : after.servers = before.servers)
  | acts {server endpoint : Nat} {act : EndpointAct}
      (hservers : ∀ place, (after.server? place).map Server.path =
        (before.server? place).map Server.path)
      (hendpoints : ∀ server' endpoint', after.endpoint? server' endpoint' =
        (before.endpoint? server' endpoint').map fun value =>
          if server' = server ∧ endpoint' = endpoint then value.act act else value)

theorem act_treeStep (relay : Relay) (id : ConnectionId) (act : Act) :
    TreeStep relay (relay.act id act).relay := by
  refine .acts ?_ (relay.endpoint?_act id act)
  intro place
  unfold Relay.act stepConnection
  split
  next => rfl
  next =>
    split
    next => rfl
    next => exact path_server?_setEndpoint _ _ _ _ place

theorem closeFanOut_treeStep (relay : Relay) (server endpoint : Nat) :
    TreeStep relay (relay.closeFanOut server endpoint) := by
  refine .acts ?_ (relay.endpoint?_closeFanOut server endpoint)
  intro place
  unfold closeFanOut
  split
  next => rfl
  next => exact path_server?_setEndpoint _ _ _ _ place

theorem TreeStep.setPhase {before after : Relay} (h : TreeStep before after) (place : Nat)
    (phase : TaskPhase) : TreeStep before (after.setPhase place phase) := by
  cases h with
  | rests hservers => exact .rests hservers
  | acts hservers hendpoints => exact .acts hservers hendpoints

/-- An endpoint after a step is the one before it, or has acted. -/
theorem TreeStep.endpoint {before after : Relay} (h : TreeStep before after)
    {server endpoint : Nat} {later : Endpoint}
    (hlater : after.endpoint? server endpoint = some later) :
    ∃ value, before.endpoint? server endpoint = some value ∧
      (later = value ∨ ∃ act, later = value.act act) := by
  cases h with
  | rests hservers =>
      rw [endpoint?_congr hservers] at hlater
      exact ⟨later, hlater, .inl rfl⟩
  | acts _ hendpoints =>
      rw [hendpoints] at hlater
      obtain ⟨value, hvalue, rfl⟩ := Option.map_eq_some_iff.mp hlater
      refine ⟨value, hvalue, ?_⟩
      split_ifs
      · exact .inr ⟨_, rfl⟩
      · exact .inl rfl

/-- The tree has the parts that it had, and they have the paths that they had. -/
theorem TreeStep.componentPath? {before after : Relay} (h : TreeStep before after)
    (component : Component) : after.componentPath? component = before.componentPath? component := by
  cases h with
  | rests hservers =>
      cases component with
      | connection id =>
          rw [Relay.componentPath?, Relay.componentPath?, connection?_congr hservers]
      | group group =>
          cases group with
          | relay => rfl
          | server place =>
              simp only [Relay.componentPath?, pathOf?, server?, hservers]
          | endpoint server endpoint =>
              simp only [Relay.componentPath?, pathOf?, endpoint?_congr hservers]
  | acts hpaths hendpoints =>
      cases component with
      | connection id =>
          simp only [Relay.componentPath?, connection?, hendpoints]
          cases before.endpoint? id.server id.endpoint with
          | none => rfl
          | some value =>
              simp only [Option.map_some, Option.bind_some]
              split_ifs
              · exact value.connections_act _ id.index
              · rfl
      | group group =>
          cases group with
          | relay => rfl
          | server place => exact hpaths place
          | endpoint server' endpoint' =>
              simp only [Relay.componentPath?, pathOf?, hendpoints]
              cases before.endpoint? server' endpoint' with
              | none => rfl
              | some value =>
                  simp only [Option.map_some]
                  split_ifs
                  · exact congrArg some (value.path_act _)
                  · rfl

theorem TreeStep.connection_before {before after : Relay} (h : TreeStep before after)
    {id : ConnectionId} {later : Connection} (hlater : after.connection? id = some later) :
    ∃ connection, before.connection? id = some connection ∧ connection.path = later.path := by
  have hpart := h.componentPath? (.connection id)
  rw [Relay.componentPath?, Relay.componentPath?, hlater] at hpart
  exact Option.map_eq_some_iff.mp hpart.symm

/-- The parts right below a group are those whose parent it is. -/
theorem mem_childrenOf {group : Group} {component : Component} :
    component ∈ relay.childrenOf group ↔
      component.parent? = some group ∧ (relay.componentPath? component).isSome := by
  simp only [childrenOf, List.mem_map, List.mem_range]
  constructor
  · rintro ⟨index, hindex, rfl⟩
    cases group with
    | relay => simpa [Component.parent?, componentPath?, pathOf?, server?, sizeOf] using hindex
    | server server =>
        cases hserver : relay.server? server with
        | none => simp [sizeOf, hserver] at hindex
        | some value =>
            simpa [Component.parent?, componentPath?, pathOf?, endpoint?, sizeOf, hserver]
              using hindex
    | endpoint server endpoint =>
        cases hendpoint : relay.endpoint? server endpoint with
        | none => simp [sizeOf, hendpoint] at hindex
        | some value =>
            simpa [Component.parent?, componentPath?, connection?, sizeOf, hendpoint] using hindex
  · rintro ⟨hparent, hpart⟩
    cases component with
    | connection id =>
        obtain rfl := Option.some.inj hparent
        cases hendpoint : relay.endpoint? id.server id.endpoint with
        | none => simp [componentPath?, connection?, hendpoint] at hpart
        | some value =>
            refine ⟨id.index, ?_, rfl⟩
            simpa [componentPath?, connection?, sizeOf, hendpoint] using hpart
    | group child =>
        cases child with
        | relay => cases hparent
        | server server =>
            obtain rfl := Option.some.inj hparent
            refine ⟨server, ?_, rfl⟩
            simpa [componentPath?, pathOf?, server?, sizeOf] using hpart
        | endpoint server endpoint =>
            obtain rfl := Option.some.inj hparent
            cases hserver : relay.server? server with
            | none => simp [componentPath?, pathOf?, endpoint?, hserver] at hpart
            | some value =>
                refine ⟨endpoint, ?_, rfl⟩
                simpa [componentPath?, pathOf?, endpoint?, sizeOf, hserver] using hpart

theorem nodup_childrenOf (relay : Relay) (group : Group) : (relay.childrenOf group).Nodup := by
  refine List.Nodup.map ?_ List.nodup_range
  intro first second heq
  cases group <;> simpa using heq

/-- What is below a part of the tree is below its parts. -/
theorem parent_isPart {component : Component} {group : Group}
    (hparent : component.parent? = some group)
    (hpart : (relay.componentPath? component).isSome) :
    (relay.componentPath? (.group group)).isSome := by
  cases component with
  | connection id =>
      obtain rfl := Option.some.inj hparent
      cases hendpoint : relay.endpoint? id.server id.endpoint with
      | none => simp [componentPath?, connection?, hendpoint] at hpart
      | some value => simp [componentPath?, pathOf?, hendpoint]
  | group child =>
      cases child with
      | relay => cases hparent
      | server server =>
          obtain rfl := Option.some.inj hparent
          rfl
      | endpoint server endpoint =>
          obtain rfl := Option.some.inj hparent
          cases hserver : relay.server? server with
          | none => simp [componentPath?, pathOf?, endpoint?, hserver] at hpart
          | some value => simp [componentPath?, pathOf?, hserver]

end Relay

end LiveRelay
