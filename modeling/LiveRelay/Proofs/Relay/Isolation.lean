import LiveRelay.Proofs.Relay.Locality

/-! # A step of one connection

A connection takes its steps in its own place of the tree. All that another part of the relay
can see of such a step is what the connection takes from its queue or, if it is a source, pushes
into the queues of its endpoint (`Connection.Touches`). Everything else stays as it is
(`IsStepOf.keepsOthers`).
-/

namespace LiveRelay

/-- What a connection can do to the fan-out of its endpoint in one step. -/
inductive Connection.Touches (connection : Connection) (fanOut : FanOut) : FanOut → Prop
  | rests : Touches connection fanOut fanOut
  /-- A source pushes frames that the filter lets pass into every queue. -/
  | pushes (hpath : connection.framePath = .publish) (hopen : fanOut.closed = false)
      {frames : List Frame} (hallowed : ∀ frame ∈ frames, fanOut.filter.allows frame = true) :
      Touches connection fanOut { fanOut with sinks := fanOut.sinks.map (·.pushAll frames) }
  /-- A sink takes a frame from its own queue. -/
  | pops {sink : Nat} {queue rest : SinkQueue} {frame : Frame}
      (hpath : connection.framePath = .deliver sink) (hqueue : fanOut.sinks[sink]? = some queue)
      (hpop : queue.pop = (.frame frame, rest)) :
      Touches connection fanOut (fanOut.setSink sink rest)

theorem Connection.act_touches {connection : Connection}
    (hfits : ∀ await ∈ connection.life.link?, await.Fits connection.framePath) (fanOut : FanOut)
    (act : Act) : connection.Touches fanOut (connection.act fanOut act).fanOut := by
  cases hpath : connection.framePath with
  | deliver sink =>
      rw [hpath] at hfits
      rcases taken_cases hpath hfits fanOut act with ⟨-, hsame⟩ | ⟨frame, -, hpop⟩
      · rw [hsame]
        exact .rests
      · obtain ⟨queue, rest, hqueue, hrest, hlater⟩ := FanOut.eq_of_pop hpop
        rw [hlater]
        exact .pops hpath hqueue hrest
  | publish =>
      rw [fanOut_of_publish hpath fanOut fanOut act, FanOut.publishAll_eq]
      by_cases hclosed : fanOut.closed = true
      · have hnothing : fanOut.accepts (connection.handling fanOut act).published = [] :=
          if_pos hclosed
        have hsame : fanOut.sinks.map (·.pushAll []) = fanOut.sinks := List.map_id _
        rw [hnothing, hsame]
        exact .rests
      · have hopen : fanOut.closed = false := by simpa using hclosed
        refine .pushes hpath hopen fun frame hframe => ?_
        rw [FanOut.accepts, if_neg hclosed] at hframe
        exact (List.mem_filter.mp hframe).2

namespace Relay

variable {relay : Relay} {id : ConnectionId} {move : Move}

/-- The move is a step of this connection and of nothing else: the connection is answered, run or
closed by itself, or one of its tasks is looked at. -/
inductive IsStepOf (relay : Relay) (id : ConnectionId) : Move → Prop
  | signals (signal : Signal) : IsStepOf relay id (.signal id signal)
  | closes : IsStepOf relay id (.close (.connection id))
  | runs (token : Token) : IsStepOf relay id (.run (.connection id) token)
  | polls {place : Nat} {token : Token} {phase : TaskPhase}
      (htask : relay.tasks[place]? = some ⟨.connection id, token, phase⟩) :
      IsStepOf relay id (.poll place)

/-- Only tasks of this connection are not as they were. -/
def KeepsOtherTasks (relay : Relay) (id : ConnectionId) (tasks : List Task) : Prop :=
  ∀ (place : Nat) (task : Task), task.component ≠ .connection id →
    (tasks[place]? = some task ↔ relay.tasks[place]? = some task)

theorem keepsOtherTasks_self : relay.KeepsOtherTasks id relay.tasks := fun _ _ _ => Iff.rfl

theorem keepsOtherTasks_spawn (relay : Relay) (id : ConnectionId) (token : Token) :
    relay.KeepsOtherTasks id (relay.spawn [.connection id] token).2.tasks := by
  intro place task hother
  simp only [spawn, List.map_cons, List.map_nil]
  rcases Nat.lt_or_ge place relay.tasks.length with hlt | hge
  · rw [List.getElem?_append_left hlt]
  · rw [List.getElem?_append_right hge, List.getElem?_eq_none hge]
    constructor
    · intro htask
      obtain rfl := List.mem_singleton.mp (List.mem_of_getElem? htask)
      exact absurd rfl hother
    · nofun

theorem keepsOtherTasks_setPhase {place : Nat} {token : Token} {phase : TaskPhase}
    (htask : relay.tasks[place]? = some ⟨.connection id, token, phase⟩) (later : TaskPhase) :
    relay.KeepsOtherTasks id (relay.setPhase place later).tasks := by
  intro other task hother
  by_cases hplace : other = place
  · subst hplace
    rw [getElem?_setPhase_self, htask]
    constructor <;>
    · rintro ⟨⟩
      exact absurd rfl hother
  · rw [getElem?_setPhase_of_ne relay hplace]

/-- In its step a connection acts, or it only has its tasks go on. -/
theorem IsStepOf.step_cases (h : relay.IsStepOf id move) :
    ∃ tasks, relay.KeepsOtherTasks id tasks ∧
      (relay.step move = ⟨{ relay with tasks }, []⟩ ∨
        ∃ act, relay.Admits id.server id.endpoint move (.connection id.index act) ∧
          relay.step move =
            ⟨{ (relay.act id act).relay with tasks }, (relay.act id act).occurrences⟩) := by
  have hacts : ∀ {act : Act}, relay.Admits id.server id.endpoint move (.connection id.index act) →
      relay.step move = relay.act id act → ∃ act, relay.Admits id.server id.endpoint move
        (.connection id.index act) ∧ relay.step move =
          ⟨{ (relay.act id act).relay with tasks := relay.tasks },
            (relay.act id act).occurrences⟩ := by
    intro act hadmits hstep
    refine ⟨act, hadmits, ?_⟩
    rw [hstep, ← tasks_act relay id act]
  cases h with
  | signals signal =>
      refine ⟨relay.tasks, keepsOtherTasks_self, ?_⟩
      cases hconnection : relay.connection? id with
      | none =>
          have hrests : relay.signal id signal = ⟨relay, []⟩ :=
            stepConnection_of_none hconnection _
          exact .inl hrests
      | some connection =>
          exact .inr (hacts (.signals hconnection signal) (signal_eq_act hconnection signal))
  | closes => exact ⟨relay.tasks, keepsOtherTasks_self, .inr (hacts (.closes rfl) rfl)⟩
  | runs token => exact ⟨_, keepsOtherTasks_spawn relay id token, .inl rfl⟩
  | @polls place token phase htask =>
      simp only [step]
      cases hpoll : relay.poll? place with
      | none => exact ⟨relay.tasks, keepsOtherTasks_self, .inl rfl⟩
      | some change =>
          rcases poll?_connection htask hpoll with ⟨rfl, rfl⟩ | ⟨later, rfl⟩
          · refine ⟨(relay.setPhase place .driving).tasks, keepsOtherTasks_setPhase htask _,
              .inr ⟨_, .begins htask, ?_⟩⟩
            simp only [Option.getD_some, begun, setPhase, tasks_act]
          · exact ⟨_, keepsOtherTasks_setPhase htask later, .inl rfl⟩

/-- Nothing in the relay but this connection and its tasks is touched, except that the connection
may touch the fan-out of its endpoint. -/
structure KeepsOthers (relay : Relay) (id : ConnectionId) (change : Change) : Prop where
  connection : ∀ other, other ≠ id → change.relay.connection? other = relay.connection? other
  /-- No other connection has shown anything. -/
  effects : ∀ other value, other ≠ id → relay.connection? other = some value →
    effectsOf other value.path change.occurrences = []
  /-- Whatever is seen of the step is seen of this connection. -/
  occurrences : ∀ occurrence ∈ change.occurrences, ∃ connection effect,
    relay.connection? id = some connection ∧
      occurrence = Effect.occurrence id connection.path effect
  endpoint : ∀ server endpoint, ¬(server = id.server ∧ endpoint = id.endpoint) →
    change.relay.endpoint? server endpoint = relay.endpoint? server endpoint
  own : ∀ value, relay.endpoint? id.server id.endpoint = some value →
    change.relay.endpoint? id.server id.endpoint = some value ∨
      ∃ connection later fanOut, value.connections[id.index]? = some connection ∧
        connection.Touches value.fanOut fanOut ∧
        change.relay.endpoint? id.server id.endpoint =
          some { value with fanOut, connections := value.connections.set id.index later }
  task : relay.KeepsOtherTasks id change.relay.tasks
  cancelled_eq : change.relay.cancelled = relay.cancelled
  hasRun_eq : change.relay.hasRun = relay.hasRun

/-- A sink waits for its queue or for its link, and a source for its link. -/
def IsFitting (relay : Relay) : Prop :=
  ∀ id connection, relay.connection? id = some connection →
    ∀ await ∈ connection.life.link?, await.Fits connection.framePath

theorem act_keepsOthers (hpaths : relay.HasOwnPaths) (hfitting : relay.IsFitting) (act : Act)
    {tasks : List Task} (htasks : relay.KeepsOtherTasks id tasks) :
    relay.KeepsOthers id
      ⟨{ (relay.act id act).relay with tasks }, (relay.act id act).occurrences⟩ where
  connection := fun other hother => connection?_act_of_ne hother relay act
  effects := by
    intro other value hother hvalue
    rcases Deed.act_cases hpaths hvalue id act with ⟨rfl, -⟩ | ⟨-, hrests⟩
    · exact absurd rfl hother
    · exact hrests.effects_eq
  occurrences := by
    intro occurrence hoccurrence
    cases hconnection : relay.connection? id with
    | none =>
        rw [act_of_none hconnection] at hoccurrence
        cases hoccurrence
    | some connection =>
        obtain ⟨fanOut, -, hoccurrences, -, -⟩ := act_of_some hconnection act
        rw [hoccurrences, Turn.occurrences_eq, (connection.act_passes fanOut act).path_eq]
          at hoccurrence
        obtain ⟨effect, -, rfl⟩ := List.mem_map.mp hoccurrence
        exact ⟨connection, effect, rfl, rfl⟩
  endpoint := by
    intro server endpoint hplace
    refine (relay.endpoint?_act id act server endpoint).trans ?_
    simp only [if_neg hplace, Option.map_id']
  own := by
    intro value hvalue
    have hlater := relay.endpoint?_act id act id.server id.endpoint
    rw [hvalue] at hlater
    simp only [and_self, if_true, Option.map_some, Endpoint.act] at hlater
    cases hconnection : value.connections[id.index]? with
    | none =>
        rw [hconnection] at hlater
        exact .inl hlater
    | some connection =>
        rw [hconnection] at hlater
        have hfits := hfitting id connection (by rw [connection?, hvalue]; exact hconnection)
        exact .inr ⟨connection, _, _, rfl, Connection.act_touches hfits value.fanOut act, hlater⟩
  task := htasks
  cancelled_eq := cancelled_act relay id act
  hasRun_eq := hasRun_act relay id act

theorem rest_keepsOthers {tasks : List Task} (htasks : relay.KeepsOtherTasks id tasks) :
    relay.KeepsOthers id ⟨{ relay with tasks }, []⟩ where
  connection := fun _ _ => rfl
  effects := fun _ _ _ _ => rfl
  occurrences := fun _ hnone => absurd hnone List.not_mem_nil
  endpoint := fun _ _ _ => rfl
  own := fun _ hvalue => .inl hvalue
  task := htasks
  cancelled_eq := rfl
  hasRun_eq := rfl

/-- A step of a connection leaves the others alone. -/
theorem IsStepOf.keepsOthers (h : relay.IsStepOf id move) (hpaths : relay.HasOwnPaths)
    (hfitting : relay.IsFitting) : relay.KeepsOthers id (relay.step move) := by
  obtain ⟨tasks, htasks, hstep | ⟨act, -, hstep⟩⟩ := h.step_cases
  · rw [hstep]
    exact rest_keepsOthers htasks
  · rw [hstep]
    exact act_keepsOthers hpaths hfitting act htasks

/-! ## What holds in every state of a relay -/

theorem GoesBy.mono {before after : Relay} {server endpoint : Nat}
    {allowed admitted : EndpointAct → Prop} (h : GoesBy before after server endpoint allowed)
    (hall : ∀ act, allowed act → admitted act) : GoesBy before after server endpoint admitted := by
  obtain ⟨acts, hacts, hafter⟩ := h
  exact ⟨acts, fun act hact => hall act (hacts act hact), hafter⟩

theorem stepAll_goesBy (relay : Relay) (moves : List Move) (server endpoint : Nat) :
    GoesBy relay (relay.stepAll moves).relay server endpoint fun _ => True := by
  induction moves using List.reverseRecOn with
  | nil => exact .of_servers_eq rfl
  | append_singleton moves move ih =>
      rw [stepAll_append_singleton]
      exact ih.trans ((step_goesBy _ move server endpoint).mono fun _ _ => trivial)

/-- What happens to an endpoint of a relay is what can happen to an endpoint. -/
theorem endpoint?_stepAll {config : Config} {moves : List Move} {server endpoint : Nat}
    {value : Endpoint}
    (h : ((ofConfig config).stepAll moves).relay.endpoint? server endpoint = some value) :
    ∃ parent settings acts, value = (Endpoint.ofConfig parent endpoint settings).afterAll acts := by
  obtain ⟨acts, -, hafter⟩ := stepAll_goesBy (ofConfig config) moves server endpoint
  rw [h, endpoint?_ofConfig] at hafter
  obtain ⟨first, hfirst, rfl⟩ := Option.map_eq_some_iff.mp hafter.symm
  obtain ⟨settings, -, rfl⟩ := Option.map_eq_some_iff.mp hfirst
  exact ⟨_, settings, acts, rfl⟩

theorem stepAll_isFitting (config : Config) (moves : List Move) :
    ((ofConfig config).stepAll moves).relay.IsFitting := by
  intro id connection hconnection
  obtain ⟨value, hvalue, hget⟩ := Option.bind_eq_some_iff.mp hconnection
  obtain ⟨parent, settings, acts, rfl⟩ := endpoint?_stepAll hvalue
  exact Endpoint.fits_afterAll (Endpoint.ofConfig_isNew parent _ settings) hget

end Relay

end LiveRelay
