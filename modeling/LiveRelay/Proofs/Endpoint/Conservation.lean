import LiveRelay.Proofs.Endpoint.Ledger

/-! # No frame is lost unseen

Every frame that the fan-out of an endpoint accepts is accounted for at every sink:
buffered, given up by the queue, in hand, written, lost with a link, or given up when the
run was cancelled. `ledger_balances` says so for everything that can happen to an endpoint,
in any order.
-/

namespace LiveRelay

namespace Endpoint

/-- No two connections take their frames from one queue. -/
def HasOwnSinks (framePaths : List FramePath) : Prop :=
  ∀ i j sink : Nat, framePaths[i]? = some (FramePath.deliver sink) →
    framePaths[j]? = some (FramePath.deliver sink) → i = j

/-- What every act keeps, apart from the ledgers. -/
structure IsSound (endpoint : Endpoint) : Prop where
  coherent : ∀ connection ∈ endpoint.connections, connection.Coherent
  hasOwnSinks : HasOwnSinks (endpoint.connections.map (·.framePath))
  isUniform : endpoint.fanOut.IsUniform
  isEncodable : ∀ queue ∈ endpoint.fanOut.sinks, ∀ frame ∈ queue.frames, frame.IsEncodable

/-- The ledger of every sink is right. -/
def HasLedgers (endpoint : Endpoint) (ledgers : Nat → Nat → Ledger) : Prop :=
  ∀ index connection sink, endpoint.connections[index]? = some connection →
    connection.framePath = .deliver sink →
    ∃ queue, endpoint.fanOut.sinks[sink]? = some queue ∧
      (ledgers index sink).Accounts connection queue

/-! ## Where the frames go in a step -/

section Turn

variable {fanOut : FanOut} {connection : Connection} {handling : Handling} {turn : Turn}

theorem isUniform_of_handled (h : connection.Handled fanOut handling turn)
    (huniform : fanOut.IsUniform) : turn.fanOut.IsUniform := by
  rcases h.fanOut_eq with ⟨-, hfanOut⟩ | ⟨-, sink, frame, -, -, hpop⟩
  · rw [hfanOut]
    exact FanOut.isUniform_publishAll huniform _
  · exact FanOut.isUniform_pop huniform hpop

/-- No step of a connection closes the fan-out, or changes its filter. -/
theorem keeps_of_handled (h : connection.Handled fanOut handling turn) :
    turn.fanOut.filter = fanOut.filter ∧ turn.fanOut.closed = fanOut.closed := by
  rcases h.fanOut_eq with ⟨-, hfanOut⟩ | ⟨-, sink, frame, -, -, hpop⟩
  · rw [hfanOut, FanOut.publishAll_eq]
    exact ⟨rfl, rfl⟩
  · obtain ⟨queue, popped, -, -, hrest⟩ := FanOut.eq_of_pop hpop
    rw [hrest]
    exact ⟨rfl, rfl⟩

theorem isEncodable_of_handled (h : connection.Handled fanOut handling turn)
    (hpublished : ∀ frame ∈ handling.published, frame.IsEncodable)
    (hencodable : ∀ queue ∈ fanOut.sinks, ∀ frame ∈ queue.frames, frame.IsEncodable) :
    ∀ queue ∈ turn.fanOut.sinks, ∀ frame ∈ queue.frames, frame.IsEncodable := by
  intro queue hqueue frame hframe
  rcases h.fanOut_eq with ⟨-, hfanOut⟩ | ⟨-, sink, taken, -, -, hpop⟩
  · rw [hfanOut, FanOut.publishAll_eq] at hqueue
    obtain ⟨before, hbefore, rfl⟩ := List.mem_map.mp hqueue
    rcases SinkQueue.mem_pushAll hframe with hold | hnew
    · exact hencodable before hbefore frame hold
    · exact hpublished frame (FanOut.mem_of_mem_accepts hnew)
  · obtain ⟨before, popped, hbefore, hpopped, hrest⟩ := FanOut.eq_of_pop hpop
    rw [hrest] at hqueue
    rcases List.mem_or_eq_of_mem_set hqueue with hqueue | rfl
    · exact hencodable queue hqueue frame hframe
    · apply hencodable before (List.mem_of_getElem? hbefore) frame
      rw [(SinkQueue.eq_of_pop hpopped).1]
      exact List.mem_cons_of_mem _ hframe

/-- What a step does to the queue of the connection that takes it. -/
theorem queue_of_handled (h : connection.Handled fanOut handling turn) {sink : Nat}
    {queue : SinkQueue} (hpath : connection.framePath = .deliver sink)
    (hqueue : fanOut.sinks[sink]? = some queue) :
    ∃ popped : SinkQueue, queue.frames = handling.taken ++ popped.frames ∧
      popped.dropped = queue.dropped ∧ popped.closed = queue.closed ∧
      turn.fanOut.sinks[sink]? = some (popped.pushAll (fanOut.accepts handling.published)) := by
  rcases h.fanOut_eq with ⟨htaken, hfanOut⟩ | ⟨hpublished, other, frame, hother, htaken, hpop⟩
  · refine ⟨queue, by rw [htaken, List.nil_append], rfl, rfl, ?_⟩
    rw [hfanOut, FanOut.publishAll_eq]
    simp [hqueue]
  · obtain rfl : sink = other := by
      rw [hpath] at hother
      exact FramePath.deliver.inj hother
    obtain ⟨before, popped, hbefore, hpopped, hrest⟩ := FanOut.eq_of_pop hpop
    obtain rfl : queue = before := Option.some.inj (hqueue.symm.trans hbefore)
    obtain ⟨hframes, hdropped, hclosed⟩ := SinkQueue.eq_of_pop hpopped
    refine ⟨popped, by rw [htaken, hframes, List.singleton_append], hdropped, hclosed, ?_⟩
    rw [hrest, hpublished, FanOut.accepts_nil]
    have hlt : sink < fanOut.sinks.length := (List.getElem?_eq_some_iff.mp hqueue).1
    simp [FanOut.setSink, SinkQueue.pushAll, hlt]

/-- What a step does to the queue of another connection. -/
theorem queue_of_handled_other (h : connection.Handled fanOut handling turn) {sink : Nat}
    {queue : SinkQueue} (hpath : connection.framePath ≠ .deliver sink)
    (hqueue : fanOut.sinks[sink]? = some queue) :
    turn.fanOut.sinks[sink]? = some (queue.pushAll (fanOut.accepts handling.published)) := by
  rcases h.fanOut_eq with ⟨-, hfanOut⟩ | ⟨hpublished, other, frame, hother, -, hpop⟩
  · rw [hfanOut, FanOut.publishAll_eq]
    simp [hqueue]
  · have hne : other ≠ sink := by
      rintro rfl
      exact hpath hother
    obtain ⟨before, popped, -, -, hrest⟩ := FanOut.eq_of_pop hpop
    rw [hrest, hpublished, FanOut.accepts_nil]
    simp [FanOut.setSink, SinkQueue.pushAll, hne, hqueue]

end Turn

/-! ## One step -/

variable {endpoint : Endpoint} {ledgers : Nat → Nat → Ledger}

theorem after_isSound (h : endpoint.IsSound) {actor : Nat} {connection : Connection}
    (hconnection : endpoint.connections[actor]? = some connection) (act : Act) :
    (endpoint.after actor (connection.act endpoint.fanOut act)).IsSound := by
  have hmem := List.mem_of_getElem? hconnection
  have hcoherent := h.coherent connection hmem
  have hhandled := connection.act_handled endpoint.fanOut act
  obtain ⟨_, _, -, hgoes⟩ := Connection.act_takesCourse hcoherent endpoint.fanOut act
  have hpaths : (endpoint.after actor (connection.act endpoint.fanOut act)).connections.map
      (·.framePath) = endpoint.connections.map (·.framePath) := by
    obtain ⟨hlt, hget⟩ := List.getElem?_eq_some_iff.mp hconnection
    have hself : endpoint.connections.set actor connection = endpoint.connections := by
      rw [← hget]
      exact List.set_getElem_self hlt
    rw [after, List.map_set, hgoes.framePath_eq]
    exact (List.map_set ..).symm.trans (congrArg _ hself)
  constructor
  case coherent =>
    intro other hother
    rcases List.mem_or_eq_of_mem_set hother with hother | rfl
    · exact h.coherent other hother
    · exact connection.act_coherent hcoherent endpoint.fanOut act
  case hasOwnSinks =>
    rw [hpaths]
    exact h.hasOwnSinks
  case isUniform => exact isUniform_of_handled hhandled h.isUniform
  case isEncodable =>
    exact isEncodable_of_handled hhandled (connection.published_isEncodable _ _) h.isEncodable

theorem act_isSound (h : endpoint.IsSound) (act : EndpointAct) : (endpoint.act act).IsSound := by
  cases act with
  | connection actor act =>
      unfold Endpoint.act
      simp only []
      split
      next => exact h
      next connection hconnection => exact after_isSound h hconnection act
  | closeFanOut =>
      refine ⟨h.coherent, h.hasOwnSinks, FanOut.isUniform_close h.isUniform, ?_⟩
      intro queue hqueue frame hframe
      simp only [Endpoint.act, FanOut.close] at hqueue
      split_ifs at hqueue
      · exact h.isEncodable queue hqueue frame hframe
      · obtain ⟨before, -, rfl⟩ := List.mem_map.mp hqueue
        cases hframe

section Entry

variable {actor index sink : Nat} {connection : Connection} {act : Act} {queue : SinkQueue}

/-- What a connection enters in the ledger of its own sink. -/
theorem entry_self (h : endpoint.IsSound)
    (hconnection : endpoint.connections[actor]? = some connection)
    (hqueue : endpoint.fanOut.sinks[sink]? = some queue) :
    (EndpointStep.mk endpoint (.connection actor act)).entry actor sink =
      (connection.handling endpoint.fanOut act).settled ++
        let taken := endpoint.fanOut.accepts (connection.handling endpoint.fanOut act).published
        { accepted := taken, queued := taken } := by
  have hclosed := h.isUniform queue (List.mem_of_getElem? hqueue)
  simp [EndpointStep.entry, EndpointStep.handling, EndpointStep.published, EndpointStep.queued,
    EndpointStep.discarded, FanOut.accepts, hconnection, hqueue, hclosed]

/-- What a connection enters in the ledger of the sink of another. -/
theorem entry_other (h : endpoint.IsSound) (hne : actor ≠ index)
    (hconnection : endpoint.connections[actor]? = some connection)
    (hqueue : endpoint.fanOut.sinks[sink]? = some queue) :
    (EndpointStep.mk endpoint (.connection actor act)).entry index sink =
      let taken := endpoint.fanOut.accepts (connection.handling endpoint.fanOut act).published
      { accepted := taken, queued := taken } := by
  have hclosed := h.isUniform queue (List.mem_of_getElem? hqueue)
  cases hother : endpoint.connections[index]? <;>
    simp [EndpointStep.entry, EndpointStep.handling, EndpointStep.published, EndpointStep.queued,
      EndpointStep.discarded, FanOut.accepts, Handling.settled, hconnection, hqueue, hclosed, hne,
      hother]

end Entry

/-- The frames that a step interrupts, with those that were interrupted before. -/
theorem interrupted_of_accounts {ledger : Ledger} {connection : Connection} {queue : SinkQueue}
    (h : ledger.Accounts connection queue) (fanOut : FanOut) (act : Act) :
    let interrupted := ledger.interrupted ++ (connection.handling fanOut act).interrupted
    interrupted = [] ∨ interrupted.length = 1 ∧
      ∃ failure, (connection.act fanOut act).connection.life = .ended failure := by
  intro interrupted
  rcases h.interrupted with hnone | ⟨hone, failure, hended⟩
  · by_cases hnow : (connection.handling fanOut act).interrupted = []
    · left
      simp [interrupted, hnone, hnow]
    · right
      obtain ⟨hhand, hended⟩ := Connection.ended_of_interrupted hnow
      have hle := connection.life.length_inHand_le
      have hpos := List.length_pos_iff.mpr hnow
      refine ⟨?_, none, hended⟩
      simp only [interrupted, hnone, List.nil_append]
      rw [hhand] at hpos ⊢
      omega
  · right
    refine ⟨?_, failure, Connection.act_of_ended hended fanOut act⟩
    simp [interrupted, Connection.handling_of_ended hended, hone]

theorem after_hasLedgers (h : endpoint.IsSound) (hledgers : endpoint.HasLedgers ledgers)
    {actor : Nat} {connection : Connection}
    (hconnection : endpoint.connections[actor]? = some connection) (act : Act) :
    (endpoint.after actor (connection.act endpoint.fanOut act)).HasLedgers fun index sink =>
      ledgers index sink ++
        (EndpointStep.mk endpoint (.connection actor act)).entry index sink := by
  have hcoherent := h.coherent connection (List.mem_of_getElem? hconnection)
  have hhandled := connection.act_handled endpoint.fanOut act
  obtain ⟨_, _, -, hgoes⟩ := Connection.act_takesCourse hcoherent endpoint.fanOut act
  have hopen : ∀ {queue : SinkQueue} {sink : Nat}, endpoint.fanOut.sinks[sink]? = some queue →
      ∀ frames, endpoint.fanOut.accepts frames = [] ∨ queue.closed = false := by
    intro queue sink hqueue frames
    rw [h.isUniform queue (List.mem_of_getElem? hqueue)]
    cases hclosed : endpoint.fanOut.closed
    · exact .inr rfl
    · exact .inl (by simp [FanOut.accepts, hclosed])
  intro index later sink hlater hpath
  by_cases hindex : actor = index
  -- The sink of the connection that acts: it may take a frame, settle one, and publish.
  · subst hindex
    have hlt := (List.getElem?_eq_some_iff.mp hconnection).1
    obtain rfl : (connection.act endpoint.fanOut act).connection = later := by
      simpa [after, hlt] using hlater
    rw [hgoes.framePath_eq] at hpath
    obtain ⟨queue, hqueue, haccounts⟩ := hledgers actor connection sink hconnection hpath
    obtain ⟨popped, hframes, hdropped, hclosed, hafter⟩ :=
      queue_of_handled hhandled hpath hqueue
    refine ⟨_, hafter, ?_⟩
    beta_reduce
    rw [entry_self h hconnection hqueue, ← Ledger.append_assoc]
    have hsettled := haccounts.settle hframes hdropped hhandled.framesSent_eq
      hhandled.framesLost_eq hhandled.inHand_eq
      (interrupted_of_accounts haccounts endpoint.fanOut act)
      (connection.skipped_eq_nil h.isEncodable act)
    apply hsettled.pushAll
    rw [hclosed]
    exact hopen hqueue _
  -- The sink of any other connection is only given what is published.
  · have hother : endpoint.connections[index]? = some later := by
      simpa [after, List.getElem?_set_ne hindex] using hlater
    obtain ⟨queue, hqueue, haccounts⟩ := hledgers index later sink hother hpath
    have hne : connection.framePath ≠ .deliver sink := by
      intro hsame
      apply hindex
      apply h.hasOwnSinks actor index sink
      · simp [hconnection, hsame]
      · simp [hother, hpath]
    refine ⟨_, queue_of_handled_other hhandled hne hqueue, ?_⟩
    beta_reduce
    rw [entry_other h hindex hconnection hqueue]
    exact haccounts.pushAll _ (hopen hqueue _)

theorem closeFanOut_hasLedgers (h : endpoint.IsSound) (hledgers : endpoint.HasLedgers ledgers) :
    (endpoint.act .closeFanOut).HasLedgers fun index sink =>
      ledgers index sink ++ (EndpointStep.mk endpoint .closeFanOut).entry index sink := by
  intro index connection sink hconnection hpath
  obtain ⟨queue, hqueue, haccounts⟩ := hledgers index connection sink hconnection hpath
  have hclosed := h.isUniform queue (List.mem_of_getElem? hqueue)
  beta_reduce
  rw [EndpointStep.entry_of_idle _ fun _ => rfl]
  simp only [Endpoint.act, FanOut.close, EndpointStep.discarded, hqueue, hclosed]
  split_ifs
  · exact ⟨queue, hqueue, (Ledger.append_nil _).symm ▸ haccounts⟩
  · exact ⟨queue.close, by simp [hqueue], haccounts.close⟩

/-- Every act enters the right things in the ledgers. -/
theorem act_hasLedgers (h : endpoint.IsSound) (hledgers : endpoint.HasLedgers ledgers)
    (act : EndpointAct) :
    (endpoint.act act).HasLedgers fun index sink =>
      ledgers index sink ++ (EndpointStep.mk endpoint act).entry index sink := by
  cases act with
  | closeFanOut => exact closeFanOut_hasLedgers h hledgers
  | connection actor act =>
      cases hconnection : endpoint.connections[actor]? with
      | some connection =>
          have hact : endpoint.act (.connection actor act) =
              endpoint.after actor (connection.act endpoint.fanOut act) := by
            simp only [Endpoint.act, hconnection]
          rw [hact]
          exact after_hasLedgers h hledgers hconnection act
      | none =>
          -- Nobody is there to act, so neither the endpoint nor a ledger changes.
          have hact : endpoint.act (.connection actor act) = endpoint := by
            simp only [Endpoint.act, hconnection]
          have hidle : ∀ index,
              (EndpointStep.mk endpoint (.connection actor act)).handling index = {} := by
            intro index
            unfold EndpointStep.handling
            split
            next other connection hother hindex =>
              split_ifs with hactor
              · cases hother
                rw [hactor, hindex] at hconnection
                cases hconnection
              · rfl
            next => rfl
          simp only [hact, EndpointStep.entry_of_idle _ hidle, EndpointStep.discarded,
            Ledger.append_nil]
          exact hledgers

/-! ## The endpoint of a configuration -/

theorem framePaths_bounds {next index sink : Nat} {configs : List ConnectionConfig}
    (h : (framePaths next configs)[index]? = some (.deliver sink)) :
    next ≤ sink ∧ sink < next + (configs.filter (·.direction = .output)).length := by
  induction configs generalizing next index with
  | nil => simp [framePaths] at h
  | cons config configs ih =>
      unfold framePaths at h
      cases hdirection : config.direction <;> simp only [hdirection] at h
      case input =>
        cases index with
        | zero => simp at h
        | succ index => simpa [hdirection] using ih h
      case output =>
        cases index with
        | zero =>
            obtain rfl : next = sink := by simpa using h
            simp [hdirection]
        | succ index =>
            have hrest := ih h
            simp only [List.filter_cons, hdirection, decide_true, if_true, List.length_cons]
            omega

theorem framePaths_hasOwnSinks (next : Nat) (configs : List ConnectionConfig) :
    HasOwnSinks (framePaths next configs) := by
  induction configs generalizing next with
  | nil => simp [HasOwnSinks, framePaths]
  | cons config configs ih =>
      intro i j sink hi hj
      unfold framePaths at hi hj
      cases hdirection : config.direction <;> simp only [hdirection] at hi hj
      case input =>
        cases i with
        | zero => simp at hi
        | succ i =>
            cases j with
            | zero => simp at hj
            | succ j => exact congrArg Nat.succ (ih next i j sink hi hj)
      case output =>
        cases i with
        | zero =>
            cases j with
            | zero => rfl
            | succ j =>
                -- The sinks behind the first one have greater numbers.
                obtain rfl : next = sink := by simpa using hi
                exact absurd (framePaths_bounds hj).1 (Nat.not_succ_le_self _)
        | succ i =>
            cases j with
            | zero =>
                obtain rfl : next = sink := by simpa using hj
                exact absurd (framePaths_bounds hi).1 (Nat.not_succ_le_self _)
            | succ j => exact congrArg Nat.succ (ih _ i j sink hi hj)

theorem map_framePath_ofConfig (path : ComponentPath) (next : Nat)
    (configs : List ConnectionConfig) :
    (List.zipWith (Connection.ofConfig path) configs (framePaths next configs)).map
      (·.framePath) = framePaths next configs := by
  induction configs generalizing next with
  | nil => rfl
  | cons config configs ih =>
      unfold framePaths
      cases config.direction <;> simp [Connection.ofConfig, ih]

/-- Every connection of a new endpoint is a new one. -/
theorem connection_ofConfig {parent : ComponentPath} {place : Nat} {config : EndpointConfig}
    {connection : Connection} (h : connection ∈ (ofConfig parent place config).connections) :
    ∃ path settings framePath, connection = Connection.ofConfig path settings framePath := by
  obtain ⟨index, hlt, rfl⟩ := List.getElem_of_mem h
  simp only [ofConfig, List.getElem_zipWith]
  exact ⟨_, _, _, rfl⟩

theorem ofConfig_isSound (parent : ComponentPath) (place : Nat) (config : EndpointConfig) :
    (ofConfig parent place config).IsSound := by
  constructor
  case coherent =>
    intro connection hconnection
    obtain ⟨path, settings, framePath, rfl⟩ := connection_ofConfig hconnection
    rfl
  case hasOwnSinks =>
    rw [ofConfig, map_framePath_ofConfig]
    exact framePaths_hasOwnSinks 0 _
  case isUniform =>
    intro queue hqueue
    obtain ⟨_, -, rfl⟩ := List.mem_map.mp hqueue
    rfl
  case isEncodable =>
    intro queue hqueue
    obtain ⟨_, -, rfl⟩ := List.mem_map.mp hqueue
    nofun

theorem ofConfig_hasLedgers (parent : ComponentPath) (place : Nat) (config : EndpointConfig) :
    (ofConfig parent place config).HasLedgers fun _ _ => {} := by
  intro index connection sink hconnection hpath
  have hframePath : (framePaths 0 config.connections)[index]? = some (.deliver sink) := by
    rw [← map_framePath_ofConfig (parent.endpoint place config)]
    exact (List.getElem?_map ..).trans (by rw [← hpath]; exact congrArg _ hconnection)
  have hlt := (framePaths_bounds hframePath).2
  refine ⟨.ofCapacity config.queueCapacity, ?_, ?_⟩
  · simp only [ofConfig, List.getElem?_map]
    rw [List.getElem?_eq_getElem (by omega)]
    rfl
  · obtain ⟨path, settings, framePath, rfl⟩ :=
      connection_ofConfig (List.mem_of_getElem? hconnection)
    constructor <;> simp [Connection.ofConfig, SinkQueue.ofCapacity, Life.inHand]

/-- Whatever happens to an endpoint, and in which order, its ledgers stay right. -/
theorem afterAll_hasLedgers (h : endpoint.IsSound) (hledgers : endpoint.HasLedgers ledgers)
    (acts : List EndpointAct) :
    (endpoint.afterAll acts).HasLedgers fun index sink =>
      ledgers index sink ++ endpoint.ledger index sink acts := by
  induction acts generalizing endpoint ledgers with
  | nil =>
      simp only [ledger, Ledger.append_nil]
      exact hledgers
  | cons act acts ih =>
      have hrest := ih (act_isSound h act) (act_hasLedgers h hledgers act)
      simp only [Ledger.append_assoc] at hrest
      exact hrest

/-- Whatever happens to the endpoint of a configuration, and in which order, the ledger of
each of its sinks balances with the counters of the connection and its queue. -/
theorem ledger_balances (parent : ComponentPath) (place : Nat) (config : EndpointConfig)
    (acts : List EndpointAct) {index sink : Nat} {connection : Connection}
    (hconnection :
      ((ofConfig parent place config).afterAll acts).connections[index]? = some connection)
    (hpath : connection.framePath = .deliver sink) :
    ∃ queue, ((ofConfig parent place config).afterAll acts).fanOut.sinks[sink]? = some queue ∧
      ((ofConfig parent place config).ledger index sink acts).Balances connection queue := by
  have hledgers := afterAll_hasLedgers (ofConfig_isSound parent place config)
    (ofConfig_hasLedgers parent place config) acts
  obtain ⟨queue, hqueue, haccounts⟩ := hledgers index connection sink hconnection hpath
  simp only [Ledger.nil_append] at haccounts
  exact ⟨queue, hqueue, haccounts.balances⟩

/-- One source and one sink, with room for a single frame between them. -/
def narrowConfig : EndpointConfig where
  role := .client
  direction := .input
  addresses := [.plain "source:1", .detailed "sink:1" none (some .output)]
  queueCapacity := 1

/-- Two frames arrive before the sink takes one, and it is cancelled while it writes the
other. -/
def interruptedActs : List EndpointAct :=
  [.connection 0 (.run .relay false), .connection 1 (.run .relay false),
    .connection 0 (.poll false (.dialled (.ok ()))),
    .connection 1 (.poll false (.dialled (.ok ()))),
    .connection 0 (.poll false (.received (.ok [1, 2].toByteArray))),
    .connection 0 (.poll false (.received (.ok [3, 4].toByteArray))),
    .connection 1 (.poll false .woken), .connection 1 (.poll true .woken)]

theorem ledger_balances_interrupted :
    let endpoint := (ofConfig .root 0 narrowConfig).afterAll interruptedActs
    let ledger := (ofConfig .root 0 narrowConfig).ledger 1 0 interruptedActs
    ∃ connection queue, endpoint.connections[1]? = some connection ∧
      endpoint.fanOut.sinks[0]? = some queue ∧ ledger.Balances connection queue ∧
      queue.dropped = 1 ∧ ledger.interrupted = [.raw [3, 4].toByteArray] := by
  intro endpoint ledger
  have hsink : endpoint.connections[1]?.map (·.framePath) = some (.deliver 0) := by
    decide +kernel
  have hdropped : endpoint.fanOut.dropped 0 = 1 := by decide +kernel
  obtain ⟨connection, hconnection, hpath⟩ := Option.map_eq_some_iff.mp hsink
  obtain ⟨queue, hqueue, hbalances⟩ :=
    ledger_balances .root 0 narrowConfig interruptedActs hconnection hpath
  rw [FanOut.dropped, hqueue] at hdropped
  exact ⟨connection, queue, hconnection, hqueue, hbalances, hdropped, by decide +kernel⟩

end Endpoint

end LiveRelay
