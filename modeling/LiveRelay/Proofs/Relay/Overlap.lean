import LiveRelay.Proofs.Relay.Causes
import LiveRelay.Proofs.Relay.Staff

/-! # Runs of an endpoint that overlap

The fan-out of an endpoint is closed when the endpoint is, or when any run of it is over. A run
is over when every connection has ended, but for those that are run twice
(`stepAll_closesFor`). This exception is what a second run is about: it finds that every
connection has begun, has nothing to wait for, and closes the fan-out under the first one, which
still relays (`stepAll_vainRun`, `relaying_ends_when_run_again`).
-/

namespace LiveRelay

/-- A queue of which there is nothing to be had any more is closed. -/
theorem SinkQueue.pop_eq_finished_iff (queue : SinkQueue) :
    queue.pop.1 = .finished ↔ queue.closed = true := by
  unfold pop
  split_ifs with hclosed
  · simp [hclosed]
  · split <;> simp [hclosed]

namespace FanOut

variable {fanOut : FanOut}

theorem publish_eq_closed_iff (fanOut : FanOut) (frame : Frame) :
    (fanOut.publish frame).1 = .closed ↔ fanOut.closed = true := by
  unfold publish
  split_ifs with hclosed <;> simp [hclosed]

/-- Nobody is told that there will be no more frames while the fan-out is open. -/
theorem IsUniform.pop_eq_finished_iff (h : fanOut.IsUniform) {sink : Nat}
    (hsink : sink < fanOut.sinks.length) :
    (fanOut.pop sink).1 = .finished ↔ fanOut.closed = true := by
  have hqueue := List.getElem?_eq_getElem hsink
  rw [pop, hqueue, SinkQueue.pop_eq_finished_iff, h _ (List.mem_of_getElem? hqueue)]

end FanOut

namespace Relay

variable {relay : Relay} {move : Move} {change : Change} {server endpoint : Nat}

/-! ## Runs that are over -/

/-- A run that is over stays so. -/
theorem IsOver.step {component : Component} (h : relay.IsOver component) (move : Move) :
    (relay.step move).relay.IsOver component := by
  obtain ⟨place, task, htask, hcomponent, hdone, hbegun⟩ := h
  obtain ⟨next, hnext, -, hsame⟩ := (relay.step_continues move).task htask
  obtain rfl := hsame hdone
  exact ⟨place, next, hnext, hcomponent, hdone, hbegun⟩

/-- What has been stopped for a group stays stopped in every move. -/
theorem HasStopped.step {group : Group} (h : relay.HasStopped group) (move : Move) :
    (relay.step move).relay.HasStopped group :=
  step_induction (motive := fun later _ => later.HasStopped group) h
    fun hbefore hdeed => hdeed.hasStopped hbefore

/-- Whether the fan-out of every endpoint is closed when a run of the endpoint is over. -/
def StopsRuns (relay : Relay) : Prop :=
  ∀ server endpoint, relay.IsOver (.group (.endpoint server endpoint)) →
    relay.HasStopped (.endpoint server endpoint)

theorem Deed.stopsRuns (h : Deed relay move change) (hstops : relay.StopsRuns) :
    change.relay.StopsRuns := by
  rintro server endpoint ⟨place, later, hlater, hcomponent, hdone, hbegun⟩
  apply h.hasStopped
  rcases h.task_before hlater (TaskPhase.ne_ready_of_isDone hdone) with
    hsame | ⟨task, htask, hadvances, hwas⟩
  · exact hstops server endpoint ⟨place, later, hsame, hcomponent, hdone, hbegun⟩
  · obtain ⟨component, token, phase⟩ := later
    obtain ⟨component', token', phase'⟩ := task
    obtain ⟨rfl, rfl, -⟩ := Task.mk.inj hwas
    obtain rfl : component = .group (.endpoint server endpoint) := hcomponent
    cases hadvances with
    | opens => cases hdone
    | ends hstopped => exact hstopped
    | settles hsettles =>
        cases hsettles with
        | joins => cases hdone
        | strays hpath =>
            -- There is no such endpoint.
            intro value hvalue
            rw [pathOf?, hvalue] at hpath
            cases hpath

theorem stepAll_stopsRuns (config : Config) (moves : List Move) :
    ((ofConfig config).stepAll moves).relay.StopsRuns := by
  apply stepAll_induction (motive := fun later _ => later.StopsRuns)
  · rintro server endpoint ⟨place, task, htask, -⟩
    cases htask
  · exact fun _ hbefore hdeed => hdeed.stopsRuns hbefore

/-- When the fan-out of an endpoint is closed in a move, the endpoint is closed, or a run of it
is over. -/
theorem closed_step_cases {value later : Endpoint}
    (hvalue : relay.endpoint? server endpoint = some value)
    (hlater : (relay.step move).relay.endpoint? server endpoint = some later)
    (hopen : value.fanOut.closed = false) (hclosed : later.fanOut.closed = true) :
    (∃ component, move = .close component ∧ component.Holds server endpoint) ∨
      (relay.step move).relay.IsOver (.group (.endpoint server endpoint)) := by
  obtain ⟨acts, hacts, hgoes⟩ := relay.step_goesBy move server endpoint
  rw [hlater, hvalue] at hgoes
  obtain rfl := Option.some.inj hgoes
  cases hacts _ (Endpoint.mem_of_closed hopen hclosed) with
  | closesFanOut hholds => exact .inl ⟨_, rfl, hholds⟩
  | @ends place _ _ htask =>
      obtain ⟨failure, hdone⟩ := step_ends htask
      exact .inr ⟨place, _, hdone, rfl, rfl, Task.hasBegun_of_isDone nofun rfl⟩

/-- The fan-out of an endpoint is closed if and only if the endpoint, or a part of the relay
that holds it, has been closed, or a run of the endpoint is over. -/
theorem closed_stepAll_iff {config : Config} {moves : List Move} {value : Endpoint}
    (hvalue : ((ofConfig config).stepAll moves).relay.endpoint? server endpoint = some value) :
    value.fanOut.closed = true ↔
      (∃ component, .close component ∈ moves ∧ component.Holds server endpoint) ∨
        ((ofConfig config).stepAll moves).relay.IsOver (.group (.endpoint server endpoint)) := by
  constructor
  · intro hclosed
    induction moves using List.reverseRecOn generalizing value with
    | nil =>
        obtain ⟨first, hfirst, rfl⟩ := Option.map_eq_some_iff.mp (endpoint?_ofConfig .. ▸ hvalue)
        cases hclosed
    | append_singleton moves move ih =>
        rw [stepAll_append_singleton] at hvalue ⊢
        obtain ⟨acts, -, hgoes⟩ :=
          ((ofConfig config).stepAll moves).relay.step_goesBy move server endpoint
        obtain ⟨before, hbefore, -⟩ := Option.map_eq_some_iff.mp (hgoes.symm.trans hvalue)
        rcases Bool.eq_false_or_eq_true before.fanOut.closed with hearlier | hopen
        · rcases ih hbefore hearlier with ⟨component, hmem, hholds⟩ | hover
          · exact .inl ⟨component, List.mem_append_left _ hmem, hholds⟩
          · exact .inr (hover.step move)
        · rcases closed_step_cases hbefore hvalue hopen hclosed with ⟨component, rfl, hholds⟩ | hover
          · exact .inl ⟨component, List.mem_append_right _ List.mem_cons_self, hholds⟩
          · exact .inr hover
  · rintro (⟨component, hmem, hholds⟩ | hover)
    · suffices hstopped : ((ofConfig config).stepAll moves).relay.HasStopped
          (.endpoint server endpoint) from hstopped value hvalue
      clear hvalue
      induction moves using List.reverseRecOn with
      | nil => cases hmem
      | append_singleton moves move ih =>
          rw [stepAll_append_singleton]
          rcases List.mem_append.mp hmem with hearlier | hlast
          · exact (ih hearlier).step move
          · obtain rfl := List.mem_singleton.mp hlast
            exact (close_isClosed _ component).stopped server endpoint hholds
    · exact stepAll_stopsRuns config moves server endpoint hover value hvalue

/-! ## A run that has nothing to wait for -/

/-- The task of a connection that has begun is done as soon as it is looked at. -/
theorem step_poll_of_begun {place : Nat} {id : ConnectionId} {token : Token}
    (htask : relay.tasks[place]? = some ⟨.connection id, token, .ready⟩)
    (hbegun : ∀ connection, relay.connection? id = some connection →
      connection.life ≠ .unstarted) :
    relay.step (.poll place) = ⟨relay.setPhase place (.done none), []⟩ := by
  have hpoll : relay.poll? place = some (relay.beginConnection place id token) := by
    simp only [poll?, htask, Option.bind_eq_bind, Option.bind_some, begin]
  rw [step, hpoll, Option.getD_some, beginConnection_eq_done hbegun]

/-- The tasks of connections that have begun are done when each of them has been looked at, and
nothing else has happened. -/
theorem stepAll_poll_of_begun {places : List Nat} (hnodup : places.Nodup)
    (hready : ∀ place ∈ places, ∃ id token,
      relay.tasks[place]? = some ⟨.connection id, token, .ready⟩ ∧
      ∀ connection, relay.connection? id = some connection → connection.life ≠ .unstarted) :
    (relay.stepAll (places.map .poll)).relay.servers = relay.servers ∧
      (∀ other ∉ places,
        (relay.stepAll (places.map .poll)).relay.tasks[other]? = relay.tasks[other]?) ∧
      ∀ place ∈ places,
        ((relay.stepAll (places.map .poll)).relay.phaseOf place).isDone = true := by
  induction places generalizing relay with
  | nil => exact ⟨rfl, fun _ _ => rfl, List.forall_mem_nil _⟩
  | cons first rest ih =>
      obtain ⟨hnew, hnodup⟩ := List.nodup_cons.mp hnodup
      obtain ⟨id, token, htask, hbegun⟩ := hready first List.mem_cons_self
      have hstep := congrArg Change.relay (step_poll_of_begun htask hbegun)
      have hrest : ∀ place ∈ rest, ∃ id token,
          (relay.step (.poll first)).relay.tasks[place]? =
            some ⟨.connection id, token, .ready⟩ ∧
          ∀ connection, (relay.step (.poll first)).relay.connection? id = some connection →
            connection.life ≠ .unstarted := by
        intro place hplace
        obtain ⟨id, token, htask, hbegun⟩ := hready place (List.mem_cons_of_mem _ hplace)
        have hother : place ≠ first := fun hsame => hnew (hsame ▸ hplace)
        refine ⟨id, token, ?_, ?_⟩
        · rw [hstep, getElem?_setPhase_of_ne _ hother, htask]
        · rw [hstep]
          exact hbegun
      obtain ⟨hservers, hothers, hdone⟩ := ih hnodup hrest
      rw [List.map_cons, stepAll_cons]
      refine ⟨?_, ?_, ?_⟩
      · refine hservers.trans ?_
        rw [hstep]
        rfl
      · intro other hother
        rw [List.mem_cons, not_or] at hother
        refine (hothers other hother.2).trans ?_
        rw [hstep, getElem?_setPhase_of_ne _ hother.1]
      · intro place hplace
        rcases List.mem_cons.mp hplace with rfl | hlater
        · have hsettled := hothers place hnew
          rw [hstep, getElem?_setPhase_self, htask] at hsettled
          rw [Change.andThen, hstep, phaseOf_eq hsettled]
          rfl
        · exact hdone place hlater

/-- The endpoint at this place is run once more, and the new tasks are looked at: those of the
connections once, and that of the run until it has joined them. -/
def vainRun (relay : Relay) (server endpoint : Nat) (token : Token) : List Move :=
  let place := relay.tasks.length
  let count := relay.sizeOf (.endpoint server endpoint)
  .run (.group (.endpoint server endpoint)) token :: .poll place ::
    ((List.range' (place + 1) count).map .poll ++ List.replicate (count + 1) (.poll place))

/-- When a run of an endpoint begins, its task waits for a task of each connection. -/
theorem step_poll_of_endpoint {place : Nat} {token : Token} {value : Endpoint}
    (hvalue : relay.endpoint? server endpoint = some value)
    (htask : relay.tasks[place]? = some ⟨.group (.endpoint server endpoint), token, .ready⟩) :
    (relay.step (.poll place)).relay = relay.opened place (.endpoint server endpoint) token := by
  have hpath : relay.pathOf? (.endpoint server endpoint) = some value.path :=
    congrArg (Option.map Endpoint.path) hvalue
  simp [step, poll?, htask, begin, beginGroup, hpath, opened]

/-- When the task of an endpoint has joined all its parts, it closes the fan-out. -/
theorem step_poll_of_joined {place failures : Nat} {token : Token}
    (htask : relay.tasks[place]? =
      some ⟨.group (.endpoint server endpoint), token, .joining [] failures⟩) :
    (relay.step (.poll place)).relay.servers = (relay.closeFanOut server endpoint).servers := by
  simp [step, poll?, htask, advanceGroup?, endGroup, setPhase]

/-- A run that begins when every connection of the endpoint has begun is over at once. It closes
the fan-out, and nothing else becomes of the endpoint. -/
theorem stepAll_vainRun {value : Endpoint}
    (hvalue : relay.endpoint? server endpoint = some value)
    (hbegun : ∀ connection ∈ value.connections, connection.life ≠ .unstarted) (token : Token) :
    (relay.stepAll (relay.vainRun server endpoint token)).relay.endpoint? server endpoint =
      some { value with fanOut := value.fanOut.close } := by
  let place := relay.tasks.length
  let group : Group := .endpoint server endpoint
  let started := (relay.step (.run (.group group) token)).relay
  let opened := started.opened place group token
  let polls := List.range' (place + 1) (relay.sizeOf group)
  have hstarted : started.tasks[place]? = some ⟨.group group, token, .ready⟩ :=
    (List.getElem?_append_right (Nat.le_refl _)).trans (by simp)
  have hlength : started.tasks.length = place + 1 := List.length_append
  have hopens : (started.step (.poll place)).relay = opened :=
    step_poll_of_endpoint hvalue hstarted
  have hparts : started.childrenOf group = (List.range (relay.sizeOf group)).map group.part :=
    childrenOf_eq started group
  have hopened := getElem?_opened_self hstarted
  rw [hlength, hparts, List.length_map, List.length_range] at hopened
  -- Every connection has a new task, which finds that it has begun.
  have hready : ∀ other ∈ polls, ∃ id watched,
      opened.tasks[other]? = some ⟨.connection id, watched, .ready⟩ ∧
      ∀ connection, opened.connection? id = some connection →
        connection.life ≠ .unstarted := by
    intro other hother
    obtain ⟨index, hindex, rfl⟩ := List.mem_range'.mp hother
    rw [Nat.one_mul]
    have htask := getElem?_opened_new hstarted index
    rw [hlength, hparts, List.getElem?_map, List.getElem?_range hindex] at htask
    refine ⟨⟨server, endpoint, index⟩, _, htask, ?_⟩
    intro connection hconnection
    have hget : (some value).bind (·.connections[index]?) = some connection :=
      hvalue ▸ hconnection
    exact hbegun connection (List.mem_of_getElem? hget)
  obtain ⟨hservers, hothers, hdone⟩ := stepAll_poll_of_begun List.nodup_range' hready
  have hold : place ∉ polls := fun hmem => absurd (List.mem_range'_1.mp hmem).1 (by omega)
  have hwaits := (hothers place hold).trans hopened
  obtain ⟨⟨noted, hjoined⟩, hkept⟩ := joins_of_done hwaits hdone
  rw [List.length_range'] at hjoined hkept
  have hmoves : relay.vainRun server endpoint token = .run (.group group) token :: .poll place ::
      (polls.map .poll ++ (List.replicate (relay.sizeOf group) (.poll place) ++ [.poll place])) :=
    congrArg (fun last => _ :: _ :: (_ ++ last)) List.replicate_succ'
  have hclosed := step_poll_of_joined hjoined
  rw [hmoves, stepAll_cons, Change.andThen, stepAll_cons, Change.andThen, hopens, stepAll_append,
    Change.andThen, stepAll_append_singleton, Change.andThen, endpoint?_congr hclosed,
    endpoint?_closeFanOut, endpoint?_congr (hkept.trans hservers)]
  simp only [and_self, if_true]
  exact congrArg (Option.map _) hvalue

/-! ## What closes a fan-out -/

/-- When the fan-out of an endpoint is closed, in a relay that has been through these moves, and
what that is to its connections. -/
structure ClosesFor (relay : Relay) (moves : List Move) (server endpoint : Nat)
    (value : Endpoint) : Prop where
  closed_iff : value.fanOut.closed = true ↔
    (∃ component, .close component ∈ moves ∧ component.Holds server endpoint) ∨
      relay.IsOver (.group (.endpoint server endpoint))
  /-- When a run is over every connection is closed, but for those that are run twice. -/
  ended : relay.IsOver (.group (.endpoint server endpoint)) → ∀ index connection,
    value.connections[index]? = some connection →
      connection.state = .closed ∨ relay.IsRunTwice ⟨server, endpoint, index⟩
  /-- No frame is turned away before. -/
  publish : ∀ frame, (value.fanOut.publish frame).1 = .closed ↔ value.fanOut.closed = true
  /-- No sink is told before that it will get no more. -/
  finished : ∀ sink < value.fanOut.sinks.length,
    (value.fanOut.pop sink).1 = .finished ↔ value.fanOut.closed = true
  /-- A run that begins when every connection has begun closes the fan-out at once, whatever the
  connections are about. -/
  again : (∀ connection ∈ value.connections, connection.life ≠ .unstarted) → ∀ token,
    (relay.stepAll (relay.vainRun server endpoint token)).relay.endpoint? server endpoint =
      some { value with fanOut := value.fanOut.close }

/-- In every state of a relay, the fan-out of an endpoint is closed only if the endpoint has been
closed, or all its connections are, or some of them are run twice. -/
theorem stepAll_closesFor (config : Config) (moves : List Move) {server endpoint : Nat}
    {value : Endpoint}
    (hvalue : ((ofConfig config).stepAll moves).relay.endpoint? server endpoint = some value) :
    ((ofConfig config).stepAll moves).relay.ClosesFor moves server endpoint value := by
  have hsteady := stepAll_isSteady config moves
  constructor
  case closed_iff => exact closed_stepAll_iff hvalue
  case ended =>
    rintro ⟨place, task, htask, hcomponent, hdone, hbegun⟩ index connection hget
    have hconnection : ((ofConfig config).stepAll moves).relay.connection?
        ⟨server, endpoint, index⟩ = some connection := by
      rw [connection?, hvalue]
      exact hget
    have hspent := hsteady.isSpent_of_done htask hdone hbegun
    rw [hcomponent] at hspent
    rcases hspent _ connection ⟨rfl, rfl⟩ hconnection with ⟨failure, hlife⟩ | htwice
    · left
      rw [hsteady.isSound.coherent hconnection, hlife]
      rfl
    · exact .inr htwice
  case publish => exact value.fanOut.publish_eq_closed_iff
  case finished =>
    exact fun sink hsink => (hsteady.isSound.endpoint hvalue).isUniform.pop_eq_finished_iff hsink
  case again => exact fun hbegun token => stepAll_vainRun hvalue hbegun token

/-- An endpoint is run, and both its source and its sink get their links. Then it is run again. -/
def overlapMoves : List Move :=
  [.run (.group (.endpoint 0 0)) (.caller 0), .poll 0, .poll 1, .poll 2,
    .signal ⟨0, 0, 0⟩ (.dialled (.ok ())), .signal ⟨0, 0, 1⟩ (.dialled (.ok ())),
    .run (.group (.endpoint 0 0)) (.caller 1), .poll 3, .poll 4, .poll 5, .poll 3, .poll 3,
    .poll 3]

/-- What the second run has left of the endpoint. -/
def overlapped : Endpoint :=
  (((ofConfig twoWayConfig).stepAll overlapMoves).relay.endpoint? 0 0).get (by decide +kernel)

theorem stepAll_closesFor_overlapped :
    ((ofConfig twoWayConfig).stepAll overlapMoves).relay.endpoint? 0 0 = some overlapped ∧
      ((ofConfig twoWayConfig).stepAll overlapMoves).relay.ClosesFor overlapMoves 0 0 overlapped :=
  ⟨(Option.some_get _).symm, stepAll_closesFor _ _ (Option.some_get _).symm⟩

/-- A second run of an endpoint closes the fan-out while the first one still relays. Both
connections are active, nobody has closed them, and no token has been cancelled; but the next
frame is turned away, and the sink ends as soon as it looks at its queue. -/
theorem relaying_ends_when_run_again :
    let again := ((ofConfig twoWayConfig).stepAll overlapMoves).relay
    let woken := (again.signal ⟨0, 0, 1⟩ .woken).relay
    overlapped.fanOut.closed = true ∧
      overlapped.connections.map (fun connection => (connection.state, connection.closeRequested)) =
        [(.active, false), (.active, false)] ∧
      again.cancelled = [] ∧ (overlapped.fanOut.publish (.raw ByteArray.empty)).1 = .closed ∧
      (woken.connection? ⟨0, 0, 1⟩).map Connection.life = some (.ended none) := by
  decide +kernel

end Relay

end LiveRelay
