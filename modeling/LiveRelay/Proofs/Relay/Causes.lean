import LiveRelay.Proofs.Connection.Farewell
import LiveRelay.Proofs.Relay.Isolation
import LiveRelay.Proofs.Relay.Joining

/-! # What the parts of a relay can do to each other

A connection ends because of its own link, its own budget or its own peer, or because it has been
told to (`EndsFor`). Nobody is told to because another part of the relay has failed: what is
closed is closed from outside, or by a group whose connections have all ended
(`stepAll_isolates`). The exception are connections that are run twice, and there it does
happen: `sibling_ends_when_run_twice`.
-/

namespace LiveRelay

namespace Relay

variable {relay : Relay} {id : ConnectionId} {move : Move} {connection later : Connection}

/-- What holds in every state of a relay. -/
structure IsSteady (relay : Relay) : Prop where
  isSound : relay.IsSound
  isFitting : relay.IsFitting
  isDriven : relay.IsDriven
  isStaffed : relay.IsStaffed

theorem stepAll_isSteady (config : Config) (moves : List Move) :
    ((ofConfig config).stepAll moves).relay.IsSteady where
  isSound := stepAll_isSound (ofConfig_isSound config) moves
  isFitting := stepAll_isFitting config moves
  isDriven := stepAll_isDriven config moves
  isStaffed := stepAll_isStaffed config moves

/-! ## Connections -/

/-- Why a connection ends in a move. -/
inductive EndsFor (relay : Relay) (id : ConnectionId) (connection : Connection) : Move → Prop
  /-- It has been closed, or the token of its run has been cancelled. -/
  | told {run : Run} {await : Await} (hlife : connection.life = .running run await)
      (htold : connection.closeRequested = true ∨ relay.isCancelled run.token = true)
      (signal : Signal) : EndsFor relay id connection (.signal id signal)
  | budgetExhausted {run : Run} {await : Await} {signal : Signal} {failure : ConnectionError}
      (hlife : connection.life = .running run await)
      (hfailure : connection.IsToRetry await signal failure)
      (hbudget : run.budget.consume? = none) : EndsFor relay id connection (.signal id signal)
  | singleShotOver {run : Run} {await : Await} {signal : Signal} {failure : ConnectionError}
      (hlife : connection.life = .running run await) (hsingle : connection.isSingleShot = true)
      (hends : LinkEnds connection.config await signal failure) :
      EndsFor relay id connection (.signal id signal)
  /-- The fan-out of its endpoint has been closed, and its queue with it. -/
  | queueClosed {value : Endpoint}
      (hvalue : relay.endpoint? id.server id.endpoint = some value)
      (hclosed : value.fanOut.closed = true) : EndsFor relay id connection (.signal id .woken)
  | closedUnstarted {component : Component} (hcovers : component.Covers id)
      (hlife : connection.life = .unstarted) : EndsFor relay id connection (.close component)
  /-- It is run with a token that has been cancelled. -/
  | begunInVain {place : Nat} {token : Token}
      (htask : relay.tasks[place]? = some ⟨.connection id, token, .ready⟩)
      (htoken : relay.isCancelled token = true) : EndsFor relay id connection (.poll place)

/-- A connection is changed by its own steps, or when something is closed that it is a part of. -/
theorem connection_step (hconnection : relay.connection? id = some connection)
    (hlater : (relay.step move).relay.connection? id = some later) :
    later = connection ∨ relay.IsStepOf id move ∨
      ∃ component, move = .close component ∧ component.Covers id := by
  obtain ⟨value, hvalue, hget⟩ := Option.bind_eq_some_iff.mp hconnection
  obtain ⟨acts, hacts, hafter⟩ := relay.step_goesBy move id.server id.endpoint
  by_cases hrests : ∀ act, EndpointAct.connection id.index act ∉ acts
  · left
    rw [connection?, hafter, hvalue] at hlater
    have hsame := Endpoint.connection_afterAll_eq hget acts
    rw [Endpoint.occasions_eq_nil hrests] at hsame
    exact Option.some.inj (hlater.symm.trans hsame)
  · right
    push Not at hrests
    obtain ⟨act, hact⟩ := hrests
    cases hacts _ hact with
    | signals _ signal => exact .inl (.signals signal)
    | closes hcovers => exact .inr ⟨_, rfl, hcovers⟩
    | begins htask => exact .inl (.polls htask)

/-- In its own step a connection is changed by an act that the move admits. -/
theorem IsStepOf.later_cases (h : relay.IsStepOf id move)
    (hconnection : relay.connection? id = some connection)
    (hlater : (relay.step move).relay.connection? id = some later) :
    later = connection ∨ ∃ value act,
      relay.endpoint? id.server id.endpoint = some value ∧
      relay.Admits id.server id.endpoint move (.connection id.index act) ∧
      later = (connection.act value.fanOut act).connection := by
  obtain ⟨tasks, -, hstep | ⟨act, hadmits, hstep⟩⟩ := h.step_cases
  · rw [hstep] at hlater
    exact .inl (Option.some.inj (hlater.symm.trans hconnection))
  · obtain ⟨fanOut, hfanOut, -, hafter, -⟩ := act_of_some hconnection act
    obtain ⟨value, hvalue, rfl⟩ := Option.map_eq_some_iff.mp hfanOut
    rw [hstep] at hlater
    exact .inr ⟨value, act, hvalue, hadmits, Option.some.inj (hlater.symm.trans hafter)⟩

/-- A connection that runs goes on running when it is closed, until it finds out. -/
theorem close_running (component : Component) {run : Run} {await : Await}
    (hconnection : relay.connection? id = some connection)
    (hlife : connection.life = .running run await) :
    ∃ later, (relay.close component).relay.connection? id = some later ∧
      later.life = .running run await := by
  apply close_keeps (motive := fun relay => ∃ later, relay.connection? id = some later ∧
    later.life = .running run await)
  · rintro - relay ⟨before, hbefore, hrunning⟩
    exact ⟨before, (connection?_congr (servers_cancel _ _) id).trans hbefore, hrunning⟩
  · rintro relay server endpoint - ⟨before, hbefore, hrunning⟩
    exact ⟨before, (connection?_closeFanOut _ _ _ id).trans hbefore, hrunning⟩
  · rintro relay other - ⟨before, hbefore, hrunning⟩
    by_cases hother : other = id
    · subst hother
      obtain ⟨fanOut, -, -, hafter, -⟩ := act_of_some hbefore .close
      refine ⟨_, hafter, ?_⟩
      simp only [Connection.act, Connection.close, hrunning]
    · exact ⟨before, (connection?_act_of_ne (Ne.symm hother) relay .close).trans hbefore, hrunning⟩
  · exact ⟨connection, hconnection, hlife⟩

theorem told_of_interrupts {run : Run} {await : Await}
    (hlife : connection.life = .running run await) (h : relay.interrupts connection = true) :
    connection.closeRequested = true ∨ relay.isCancelled run.token = true := by
  simpa only [interrupts, hlife, Bool.or_eq_true] using h

/-- A connection does not end for the sake of another. -/
theorem IsSteady.endsFor (h : relay.IsSteady) (hconnection : relay.connection? id = some connection)
    (hbefore : ∀ failure, connection.life ≠ .ended failure)
    (hlater : (relay.step move).relay.connection? id = some later)
    {failure : Option ConnectionError} (hended : later.life = .ended failure) :
    relay.EndsFor id connection move := by
  have hcloses : ∀ component, move = .close component → component.Covers id →
      relay.EndsFor id connection move := by
    rintro component rfl hcovers
    cases hlife : connection.life with
    | unstarted => exact .closedUnstarted hcovers hlife
    | ended failure => exact absurd hlife (hbefore failure)
    | running run await =>
        obtain ⟨last, hlast, hrunning⟩ := close_running component hconnection hlife
        obtain rfl := Option.some.inj (hlater.symm.trans hlast)
        cases hended.symm.trans hrunning
  rcases connection_step hconnection hlater with rfl | hstep | ⟨component, hmove, hcovers⟩
  · exact absurd hended (hbefore failure)
  · rcases hstep.later_cases hconnection hlater with rfl | ⟨value, act, hvalue, hadmits, rfl⟩
    · exact absurd hended (hbefore failure)
    · obtain ⟨passed, life, hcourse, hgoes⟩ :=
        Connection.act_takesCourse (h.isSound.coherent hconnection) value.fanOut act
      have hlife : life = .ended failure := hgoes.life_eq.symm.trans hended
      clear hgoes
      -- The move fixes the act, and with it which courses there are.
      cases hadmits with
      | closes hcovers => exact hcloses _ rfl hcovers
      | begins htask =>
          generalize htoken : relay.isCancelled _ = cancelled at hcourse
          cases hcourse with
          | nothing => exact absurd hlife (hbefore failure)
          | begun => cases hlife
          | begunInVain => exact .begunInVain htask htoken
      | signals hother signal =>
          obtain rfl := Option.some.inj (hconnection.symm.trans hother)
          generalize htold : relay.interrupts connection = cancelled at hcourse
          cases hcourse with
          | nothing => exact absurd hlife (hbefore failure)
          | busy => cases hlife
          | linked => cases hlife
          | failed => cases hlife
          | retried => cases hlife
          | interrupted hrunning => exact .told hrunning (told_of_interrupts hrunning htold) signal
          | exhausted hrunning hfailure hbudget => exact .budgetExhausted hrunning hfailure hbudget
          | singleShotOver hrunning hsingle hends => exact .singleShotOver hrunning hsingle hends
          | queueClosed _ hclosed =>
              obtain ⟨sink, queue, -, hqueue, hempty⟩ := hclosed
              have huniform := (h.isSound.endpoint hvalue).isUniform queue
                (List.mem_of_getElem? hqueue)
              exact .queueClosed hvalue (huniform.symm.trans hempty)
  · exact hcloses component hmove hcovers

/-- A connection is asked to close only when it is closed, or a part that it belongs to is. -/
theorem asked_of_step (hconnection : relay.connection? id = some connection)
    (hbefore : connection.closeRequested = false)
    (hlater : (relay.step move).relay.connection? id = some later)
    (hasked : later.closeRequested = true) :
    ∃ component, move = .close component ∧ component.Covers id := by
  have hsame : later.closeRequested = connection.closeRequested → False := by
    rw [hasked, hbefore]
    exact Bool.noConfusion
  rcases connection_step hconnection hlater with rfl | hstep | hcloses
  · exact absurd rfl hsame
  · rcases hstep.later_cases hconnection hlater with rfl | ⟨value, act, -, hadmits, rfl⟩
    · exact absurd rfl hsame
    · have hact : act = .close := by
        by_contra hact
        exact hsame (Connection.closeRequested_act hact connection value.fanOut)
      subst hact
      cases hadmits with
      | closes hcovers => exact ⟨_, rfl, hcovers⟩
  · exact hcloses

/-! ## Endpoints -/

/-- A fan-out is closed from outside, or when all connections of the endpoint have ended. -/
theorem IsSteady.closes (h : relay.IsSteady) {server endpoint : Nat} {value after : Endpoint}
    (hvalue : relay.endpoint? server endpoint = some value)
    (hafter : (relay.step move).relay.endpoint? server endpoint = some after)
    (hopen : value.fanOut.closed = false) (hclosed : after.fanOut.closed = true) :
    (∃ component, move = .close component ∧ component.Holds server endpoint) ∨
      relay.IsSpent (.group (.endpoint server endpoint)) := by
  obtain ⟨acts, hacts, hgoes⟩ := relay.step_goesBy move server endpoint
  rw [hafter, hvalue] at hgoes
  obtain rfl := Option.some.inj hgoes
  cases hacts _ (Endpoint.mem_of_closed hopen hclosed) with
  | closesFanOut hholds => exact .inl ⟨_, rfl, hholds⟩
  | ends htask => exact .inr (h.isStaffed.isSpent h.isDriven htask rfl trivial rfl)

/-- Nobody but the connections of an endpoint puts anything into its queues, or takes it. -/
theorem fanOut_of_rests {server endpoint : Nat} {value after : Endpoint}
    (hvalue : relay.endpoint? server endpoint = some value)
    (hafter : (relay.step move).relay.endpoint? server endpoint = some after)
    (hrests : ∀ index, ¬relay.IsStepOf ⟨server, endpoint, index⟩ move) :
    after.fanOut = value.fanOut ∨ after.fanOut = value.fanOut.close := by
  obtain ⟨acts, hacts, hgoes⟩ := relay.step_goesBy move server endpoint
  rw [hafter, hvalue] at hgoes
  obtain rfl := Option.some.inj hgoes
  apply Endpoint.fanOut_of_closes
  intro act hact
  cases hacts act hact with
  | signals _ signal => exact absurd (.signals signal) (hrests _)
  | closes => exact .inr ⟨_, rfl⟩
  | begins htask => exact absurd (.polls htask) (hrests _)
  | closesFanOut => exact .inl rfl
  | ends => exact .inl rfl

/-! ## Tokens -/

/-- A token is cancelled in a move for this reason. -/
inductive Cancels (relay : Relay) : Move → Token → Prop
  | asked (token : Token) : Cancels relay (.cancel token) token
  | closed : Cancels relay (.close (.group .relay)) .relay
  /-- The time of the relay is over. -/
  | expired (place : Nat) : Cancels relay (.expire place) .relay
  /-- The token that the relay was run with has been cancelled. -/
  | told {place failures : Nat} {caller : Token} {children : List Nat}
      (htask : relay.tasks[place]? = some ⟨.group .relay, caller, .joining children failures⟩)
      (hcaller : relay.isCancelled caller = true) : Cancels relay (.poll place) .relay
  /-- The run of the relay ends. -/
  | ends (place : Nat) (hspent : relay.IsSpent (.group .relay)) :
      Cancels relay (.poll place) .relay

theorem isCancelled_of_cancel {token other : Token}
    (h : (relay.cancel token).isCancelled other = true) :
    other = token ∨ relay.isCancelled other = true := by
  rw [isCancelled_cancel, Bool.or_eq_true] at h
  exact h.imp_left of_decide_eq_true

theorem cancelled_of_close {component : Component} {token : Token}
    (h : (relay.close component).relay.isCancelled token = true) :
    relay.isCancelled token = true ∨ component = .group .relay ∧ token = .relay := by
  refine close_keeps (motive := fun later => later.isCancelled token = true →
    relay.isCancelled token = true ∨ component = .group .relay ∧ token = .relay) ?_ ?_ ?_ .inl h
  · intro hrelay later hlater hnow
    rcases isCancelled_of_cancel hnow with rfl | hbefore
    · exact .inr ⟨hrelay, rfl⟩
    · exact hlater hbefore
  · intro later server endpoint _ hlater hnow
    rw [Relay.isCancelled, cancelled_closeFanOut] at hnow
    exact hlater hnow
  · intro later id _ hlater hnow
    rw [Relay.isCancelled, cancelled_act] at hnow
    exact hlater hnow

theorem cancelled_of_stop {reason : String} {token : Token}
    (h : (relay.stop reason).relay.isCancelled token = true) :
    token = .relay ∨ relay.isCancelled token = true := by
  unfold stop at h
  split_ifs at h
  · exact .inr h
  · exact isCancelled_of_cancel h

theorem IsSteady.cancelled_of_poll (h : relay.IsSteady) {place : Nat} {change : Change}
    (hpoll : relay.poll? place = some change) {token : Token}
    (htoken : change.relay.isCancelled token = true) :
    relay.isCancelled token = true ∨ relay.Cancels (.poll place) token := by
  have hsame : change.relay.cancelled = relay.cancelled → relay.isCancelled token = true := by
    intro hcancelled
    rwa [Relay.isCancelled, hcancelled] at htoken
  obtain ⟨⟨component, other, phase⟩, htask, -⟩ := Option.bind_eq_some_iff.mp hpoll
  cases component with
  | connection id =>
      rcases poll?_connection htask hpoll with ⟨rfl, rfl⟩ | ⟨later, rfl⟩
      · exact .inl (hsame (cancelled_act _ _ _))
      · exact .inl (hsame rfl)
  | group group =>
      cases poll?_group htask hpoll with
      | rests _ hcancelled => exact .inl (hsame hcancelled)
      | stops htask' hcaller _ hcancelled =>
          rw [Relay.isCancelled, hcancelled] at htoken
          rcases isCancelled_of_cancel htoken with rfl | hbefore
          · exact .inr (.told htask' hcaller)
          · exact .inl hbefore
      | ends htask' hafter =>
          have hspent := h.isStaffed.isSpent h.isDriven htask' rfl
            (by cases group <;> trivial) rfl
          rw [hafter] at htoken hsame
          cases group with
          | relay =>
              rcases isCancelled_of_cancel htoken with rfl | hbefore
              · exact .inr (.ends place hspent)
              · exact .inl hbefore
          | server => exact .inl (hsame rfl)
          | endpoint => exact .inl (hsame (cancelled_closeFanOut _ _ _))

/-- A token that is cancelled after a move was so before, or is for one of these reasons. -/
theorem IsSteady.cancels (h : relay.IsSteady) {token : Token}
    (htoken : (relay.step move).relay.isCancelled token = true) :
    relay.isCancelled token = true ∨ relay.Cancels move token := by
  cases move with
  | run component other => exact .inl htoken
  | cancel other =>
      rcases isCancelled_of_cancel htoken with rfl | hbefore
      · exact .inr (.asked _)
      · exact .inl hbefore
  | expire place =>
      simp only [step, expire] at htoken
      split at htoken
      next =>
        rcases cancelled_of_stop htoken with rfl | hbefore
        · exact .inr (.expired place)
        · exact .inl hbefore
      next => exact .inl htoken
  | signal id signal =>
      cases hconnection : relay.connection? id with
      | none =>
          simp only [step, Relay.signal, stepConnection_of_none hconnection] at htoken
          exact .inl htoken
      | some connection =>
          simp only [step, signal_eq_act hconnection] at htoken
          rw [Relay.isCancelled, cancelled_act] at htoken
          exact .inl htoken
  | close component =>
      rcases cancelled_of_close htoken with hbefore | ⟨rfl, rfl⟩
      · exact .inl hbefore
      · exact .inr .closed
  | poll place =>
      simp only [step] at htoken
      cases hpoll : relay.poll? place with
      | none =>
          rw [hpoll] at htoken
          exact .inl htoken
      | some change =>
          rw [hpoll] at htoken
          exact h.cancelled_of_poll hpoll htoken

/-! ## The parts of a relay by themselves -/

/-- What this move does to a part of the relay has to do with that part. -/
structure Isolates (relay : Relay) (move : Move) : Prop where
  others : ∀ id, relay.IsStepOf id move → relay.KeepsOthers id (relay.step move)
  connection : ∀ id connection later, relay.connection? id = some connection →
    (relay.step move).relay.connection? id = some later →
    later = connection ∨ relay.IsStepOf id move ∨
      ∃ component, move = .close component ∧ component.Covers id
  asked : ∀ id connection later, relay.connection? id = some connection →
    connection.closeRequested = false →
    (relay.step move).relay.connection? id = some later → later.closeRequested = true →
    ∃ component, move = .close component ∧ component.Covers id
  ended : ∀ id connection later failure, relay.connection? id = some connection →
    (∀ earlier, connection.life ≠ .ended earlier) →
    (relay.step move).relay.connection? id = some later → later.life = .ended failure →
    relay.EndsFor id connection move
  /-- Frames come into the queues of an endpoint, and leave them, in steps of its connections. -/
  fanOut : ∀ server endpoint value later, relay.endpoint? server endpoint = some value →
    (relay.step move).relay.endpoint? server endpoint = some later →
    (∀ index, ¬relay.IsStepOf ⟨server, endpoint, index⟩ move) →
    later.fanOut = value.fanOut ∨ later.fanOut = value.fanOut.close
  closed : ∀ server endpoint value later, relay.endpoint? server endpoint = some value →
    (relay.step move).relay.endpoint? server endpoint = some later →
    value.fanOut.closed = false → later.fanOut.closed = true →
    (∃ component, move = .close component ∧ component.Holds server endpoint) ∨
      relay.IsSpent (.group (.endpoint server endpoint))
  cancelled : ∀ token, (relay.step move).relay.isCancelled token = true →
    relay.isCancelled token = true ∨ relay.Cancels move token
  /-- Whoever has returned has nothing left that goes on. -/
  returned : ∀ (place : Nat) (task : Task), (relay.step move).relay.tasks[place]? = some task →
    task.phase.isDone = true → task.HasBegun → (relay.step move).relay.IsSpent task.component

/-- A task that is done has left nothing behind that goes on, but for what is run twice. -/
theorem IsSteady.isSpent_of_done (h : relay.IsSteady) {place : Nat} {task : Task}
    (htask : relay.tasks[place]? = some task) (hdone : task.phase.isDone = true)
    (hbegun : task.HasBegun) : relay.IsSpent task.component := by
  cases hcomponent : task.component with
  | connection id => exact h.isStaffed.isSpent_connection h.isDriven htask hcomponent hdone
  | group group =>
      have hjoined : task.phase.children = [] := by
        cases hphase : task.phase with
        | done => rfl
        | _ => simp [hphase, TaskPhase.isDone] at hdone
      exact h.isStaffed.isSpent h.isDriven htask hcomponent hbegun hjoined

/-- In every state of a relay, no part of it suffers from what becomes of another, but for the
endpoints of connections that are run twice. -/
theorem stepAll_isolates (config : Config) (moves : List Move) (move : Move) :
    ((ofConfig config).stepAll moves).relay.Isolates move := by
  have hsteady := stepAll_isSteady config moves
  have hafter : (((ofConfig config).stepAll moves).relay.step move).relay.IsSteady := by
    have hlater := stepAll_isSteady config (moves ++ [move])
    rwa [stepAll_append_singleton] at hlater
  constructor
  case others =>
    exact fun id hstep => hstep.keepsOthers hsteady.isSound.hasOwnPaths hsteady.isFitting
  case connection =>
    exact fun id connection later hconnection hlater => connection_step hconnection hlater
  case asked =>
    exact fun id connection later hconnection hbefore hlater hasked =>
      asked_of_step hconnection hbefore hlater hasked
  case ended =>
    exact fun id connection later failure hconnection hbefore hlater hended =>
      hsteady.endsFor hconnection hbefore hlater hended
  case fanOut =>
    exact fun server endpoint value later hvalue hlater hrests =>
      fanOut_of_rests hvalue hlater hrests
  case closed =>
    exact fun server endpoint value later hvalue hlater hopen hclosed =>
      hsteady.closes hvalue hlater hopen hclosed
  case cancelled => exact fun token htoken => hsteady.cancels htoken
  case returned => exact fun place task htask hdone hbegun =>
    hafter.isSpent_of_done htask hdone hbegun

/-- A source that makes two attempts, and a sink beside it. -/
def twoWayConfig : Config where
  servers := [{ endpoints := [{
    role := .client
    direction := .input
    reconnectCount := 1
    addresses := [.plain "source:1", .detailed "sink:1" none (some .output)] }] }]

/-- The sink is run by itself and gets its link. Then the endpoint is run: the task that it starts
for the sink has nothing to do, and that of the source drives it until it gives up. -/
def twiceMoves : List Move :=
  [.run (.connection ⟨0, 0, 1⟩) (.caller 0), .poll 0, .signal ⟨0, 0, 1⟩ (.dialled (.ok ())),
    .run (.group (.endpoint 0 0)) (.caller 1), .poll 1, .poll 2, .poll 3, .poll 1,
    .signal ⟨0, 0, 0⟩ (.dialled (.error "refused")), .signal ⟨0, 0, 0⟩ .rested,
    .signal ⟨0, 0, 0⟩ (.dialled (.error "refused"))]

/-- The endpoint finds that the task of its source is done, and ends. -/
def joiningMoves : List Move := [.poll 2, .poll 1, .poll 1, .signal ⟨0, 0, 1⟩ .woken]

/-- A sink whose endpoint is run a second time ends with the source beside it. Its link is up,
nobody has closed it, and no token has been cancelled; but the endpoint has waited for a task that
had nothing to do instead of the one that drives the sink, and so the failure of the source is all
that it takes to close the fan-out. -/
theorem sibling_ends_when_run_twice :
    let failed := ((ofConfig twoWayConfig).stepAll twiceMoves).relay
    let joined := (failed.stepAll joiningMoves).relay
    (failed.connection? ⟨0, 0, 0⟩).map Connection.life =
        some (.ended (some (.budgetExhausted "source:1" 1))) ∧
      (failed.connection? ⟨0, 0, 1⟩).map Connection.state = some .active ∧
      (joined.connection? ⟨0, 0, 1⟩).map (fun sink => (sink.life, sink.closeRequested)) =
        some (.ended none, false) ∧
      joined.cancelled = [] := by
  decide +kernel

end Relay

end LiveRelay
