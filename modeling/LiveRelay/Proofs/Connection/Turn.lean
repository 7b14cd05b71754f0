import Mathlib.Tactic.Common
import LiveRelay.Connection.Step

/-! # What the parts of a step come to

A step of a connection is put together from a few parts: to give up, to try again, to let
go of a link. For each of them `Turn.Goes` says which changes of state it reports and
where it leaves the connection. None of them touches the frames.
-/

namespace LiveRelay

/-- A change of state, as it is reported. -/
structure Transition where
  source : ConnectionState
  target : ConnectionState
  attempt : Nat
  failure : Option ConnectionError
  deriving DecidableEq

/-- The change of state that an effect reports. -/
def Effect.transition? : Effect → Option Transition
  | .emit (.transition source target attempt failure) => some ⟨source, target, attempt, failure⟩
  | _ => none

/-- The state of a connection that waits for this. -/
def Await.state : Await → ConnectionState
  | .dialling => .establishing
  | .binding => .establishing
  | .accepting => .establishing
  | .reading _ _ => .active
  | .watching _ => .active
  | .writing _ _ _ _ => .active
  | .pausing => .reconnecting

/-- The state of a connection that has come this far. -/
def Life.state : Life → ConnectionState
  | .unstarted => .idle
  | .running _ await => await.state
  | .ended _ => .closed

/-- The failure with which a single-shot host ends when its link has ended in this one. That
its peer has left is none. -/
def ConnectionError.unlessPeerClosed : ConnectionError → Option ConnectionError
  | .peerClosed _ => none
  | failure => some failure

namespace Turn

/-- The changes of state that a turn reports, in order. -/
def transitions (turn : Turn) : List Transition := turn.effects.filterMap Effect.transition?

section Basic

variable (turn : Turn)

@[simp] theorem transitions_mk (connection : Connection) (fanOut : FanOut) :
    ({ connection, fanOut } : Turn).transitions = [] := rfl

@[simp] theorem connection_emit (kind : EventKind) :
    (turn.emit kind).connection = turn.connection := rfl

@[simp] theorem transitions_emit (kind : EventKind) :
    (turn.emit kind).transitions =
      turn.transitions ++ (Effect.transition? (.emit kind)).toList := by
  simp only [transitions, emit, List.filterMap_append]
  cases kind <;> rfl

@[simp] theorem connection_request (request : Request) :
    (turn.request request).connection = turn.connection := rfl

@[simp] theorem transitions_request (request : Request) :
    (turn.request request).transitions = turn.transitions := by
  simp [transitions, Turn.request, Effect.transition?]

@[simp] theorem connection_update (change : Connection → Connection) :
    (turn.update change).connection = change turn.connection := rfl

@[simp] theorem transitions_update (change : Connection → Connection) :
    (turn.update change).transitions = turn.transitions := rfl

variable (target : ConnectionState) (attempt : Nat) (failure : Option ConnectionError)

@[simp] theorem connection_transition :
    (turn.transition target attempt failure).connection =
      { turn.connection with
        state := target, attempt, lastFailure := failure.or turn.connection.lastFailure } := rfl

@[simp] theorem transitions_transition :
    (turn.transition target attempt failure).transitions =
      turn.transitions ++ [⟨turn.connection.state, target, attempt, failure⟩] :=
  transitions_emit _ _

end Basic

/-- From `before` to `after` the connection has stayed where it is, and nothing about it has
been reported. -/
structure Stays (before after : Turn) : Prop where
  transitions_eq : after.transitions = before.transitions
  life_eq : after.connection.life = before.connection.life
  state_eq : after.connection.state = before.connection.state
  config_eq : after.connection.config = before.connection.config
  framePath_eq : after.connection.framePath = before.connection.framePath

/-- From `before` to `after` these changes of state have been reported, and the connection
has come this far. -/
structure Goes (before after : Turn) (passed : List Transition) (life : Life) : Prop where
  transitions_eq : after.transitions = before.transitions ++ passed
  life_eq : after.connection.life = life
  state_eq : after.connection.state = life.state
  config_eq : after.connection.config = before.connection.config
  framePath_eq : after.connection.framePath = before.connection.framePath

theorem Stays.trans {before middle after : Turn} (first : Stays before middle)
    (second : Stays middle after) : Stays before after where
  transitions_eq := second.transitions_eq.trans first.transitions_eq
  life_eq := second.life_eq.trans first.life_eq
  state_eq := second.state_eq.trans first.state_eq
  config_eq := second.config_eq.trans first.config_eq
  framePath_eq := second.framePath_eq.trans first.framePath_eq

theorem Stays.goes {before middle after : Turn} {passed : List Transition} {life : Life}
    (first : Stays before middle) (second : Goes middle after passed life) :
    Goes before after passed life where
  transitions_eq := by rw [second.transitions_eq, first.transitions_eq]
  life_eq := second.life_eq
  state_eq := second.state_eq
  config_eq := second.config_eq.trans first.config_eq
  framePath_eq := second.framePath_eq.trans first.framePath_eq

/-- A change of state comes first. -/
theorem Goes.of_transition {before after : Turn} {target : ConnectionState} {attempt : Nat}
    {failure : Option ConnectionError} {passed : List Transition} {life : Life}
    (h : Goes (before.transition target attempt failure) after passed life) :
    Goes before after (⟨before.connection.state, target, attempt, failure⟩ :: passed) life where
  transitions_eq := by
    rw [h.transitions_eq, transitions_transition, List.append_assoc, List.singleton_append]
  life_eq := h.life_eq
  state_eq := h.state_eq
  config_eq := h.config_eq
  framePath_eq := h.framePath_eq

theorem reportDrops_stays (turn : Turn) : Stays turn turn.reportDrops := by
  unfold reportDrops
  split
  next => constructor <;> rfl
  next sink _ =>
    simp only []
    split_ifs <;> constructor <;> simp [Effect.transition?]

theorem leaveLink_stays (turn : Turn) : Stays turn turn.leaveLink :=
  turn.reportDrops_stays.trans (by constructor <;> simp [leaveLink])

theorem count_stays (turn : Turn) (change : ConnectionStats → ConnectionStats) :
    Stays turn (turn.count change) := by
  constructor <;> rfl

theorem request_stays (turn : Turn) (request : Request) : Stays turn (turn.request request) := by
  constructor <;> simp

theorem finish_goes (turn : Turn) (run : Run) (cancelled : Bool)
    (failure : Option ConnectionError) :
    Goes turn (turn.finish run cancelled failure)
      (if cancelled then
        [⟨turn.connection.state, .draining, run.budget.used, none⟩,
          ⟨.draining, .closed, run.budget.used, failure⟩]
      else [⟨turn.connection.state, .closed, run.budget.used, failure⟩])
      (.ended failure) := by
  unfold finish
  cases cancelled <;> cases run.listening <;> constructor <;>
    simp [Effect.transition?, Life.state]

theorem suspend_goes {turn : Turn} {await : Await} (h : turn.connection.state = await.state)
    (run : Run) : Goes turn (turn.suspend run await) [] (.running run await) := by
  constructor <;> simp [suspend, Life.state, h]

theorem seekLink_goes {turn : Turn} (h : turn.connection.state = .establishing) (run : Run) :
    ∃ await : Await, await.state = .establishing ∧
      Goes turn (turn.seekLink run) [] (.running run await) := by
  unfold seekLink
  split
  next => exact ⟨.dialling, rfl, (request_stays _ _).goes (suspend_goes h run)⟩
  next =>
    split_ifs
    · exact ⟨.accepting, rfl, (request_stays _ _).goes (suspend_goes h run)⟩
    · exact ⟨.binding, rfl, (request_stays _ _).goes (suspend_goes h run)⟩

theorem establish_goes (turn : Turn) (run : Run) :
    ∃ await : Await, await.state = .establishing ∧
      Goes turn (turn.establish run)
        [⟨turn.connection.state, .establishing, run.budget.used, none⟩]
        (.running run await) := by
  have hstate :
      (turn.transition .establishing run.budget.used none).connection.state = .establishing := rfl
  obtain ⟨await, hawait, hgoes⟩ := seekLink_goes hstate run
  exact ⟨await, hawait, hgoes.of_transition⟩

theorem retry_goes {budget : RetryBudget} {run : Run} (h : run.budget.consume? = some budget)
    (turn : Turn) (failure : ConnectionError) :
    Goes turn (turn.retry run failure)
      [⟨turn.connection.state, .reconnecting, run.budget.used, some failure⟩]
      (.running { run with budget } .pausing) := by
  unfold retry
  rw [h]
  apply Goes.of_transition
  exact (request_stays _ _).goes (suspend_goes rfl _)

theorem retry_goes_exhausted {run : Run} (h : run.budget.consume? = none) (turn : Turn)
    (failure : ConnectionError) :
    let exhausted := .budgetExhausted turn.address run.budget.used
    Goes turn (turn.retry run failure)
      [⟨turn.connection.state, .reconnecting, run.budget.used, some failure⟩,
        ⟨.reconnecting, .closed, run.budget.used, some exhausted⟩]
      (.ended (some exhausted)) := by
  unfold retry
  rw [h]
  apply Goes.of_transition
  exact finish_goes _ run false _

/-- With the link of a single-shot host the run ends too. -/
theorem loseLink_eq_finish {turn : Turn} (h : turn.connection.isSingleShot = true) (run : Run)
    (failure : ConnectionError) :
    turn.loseLink run failure = turn.leaveLink.finish run false failure.unlessPeerClosed := by
  have hsingle : turn.leaveLink.connection.isSingleShot = true := by
    rw [Connection.isSingleShot, turn.leaveLink_stays.config_eq]
    exact h
  unfold loseLink
  rw [if_pos hsingle]
  cases failure <;> rfl

theorem loseLink_goes {turn : Turn} (h : turn.connection.isSingleShot = true) (run : Run)
    (failure : ConnectionError) :
    Goes turn (turn.loseLink run failure)
      [⟨turn.connection.state, .closed, run.budget.used, failure.unlessPeerClosed⟩]
      (.ended failure.unlessPeerClosed) := by
  have hstays := turn.leaveLink_stays
  have hgoes := finish_goes turn.leaveLink run false failure.unlessPeerClosed
  rw [hstays.state_eq] at hgoes
  rw [loseLink_eq_finish h]
  exact hstays.goes hgoes

/-- A link that has failed is left, and then a new one is sought. -/
theorem loseLink_eq_retry {turn : Turn} (h : turn.connection.isSingleShot = false) (run : Run)
    (failure : ConnectionError) : turn.loseLink run failure = turn.leaveLink.retry run failure := by
  have hsingle : turn.leaveLink.connection.isSingleShot = false := by
    rw [Connection.isSingleShot, turn.leaveLink_stays.config_eq]
    exact h
  unfold loseLink
  simp only [hsingle, Bool.false_eq_true, if_false]

theorem read_goes {turn : Turn} (h : turn.connection.state = .active) (run : Run)
    (codec : LinkCodec) (pending : ByteArray) :
    Goes turn (turn.read run codec pending) [] (.running run (.reading codec pending)) :=
  (request_stays _ _).goes (suspend_goes h run)

theorem watch_goes {turn : Turn} (h : turn.connection.state = .active) (run : Run)
    (codec : LinkCodec) :
    Goes turn (turn.watch run codec) [] (.running run (.watching codec)) :=
  (request_stays _ _).goes (suspend_goes h run)

theorem linkUp_goes (turn : Turn) (run : Run) :
    ∃ await : Await, await.state = .active ∧
      Goes turn (turn.linkUp run) [⟨turn.connection.state, .active, 0, none⟩]
        (.running { run with budget := run.budget.reset } await) := by
  unfold linkUp
  simp only []
  split
  next =>
    refine ⟨.reading (.fresh turn.connection.config.codec) .empty, rfl, ?_⟩
    exact (turn.count_stays _).goes (Goes.of_transition (read_goes rfl _ _ _))
  next =>
    refine ⟨.watching (.fresh turn.connection.config.codec), rfl, ?_⟩
    exact (turn.count_stays _).goes (Goes.of_transition (watch_goes rfl _ _))

theorem write_goes {turn : Turn} (h : turn.connection.state = .active) (run : Run)
    (codec : LinkCodec) (frame : Frame) (size : Nat) (rest : ByteArray) :
    ∃ await : Await, await.state = .active ∧
      Goes turn (turn.write run codec frame size rest) [] (.running run await) := by
  unfold write
  split_ifs
  · have hstays := turn.count_stays (·.addSent size)
    exact ⟨.watching codec, rfl, hstays.goes (watch_goes (hstays.state_eq.trans h) run codec)⟩
  · exact ⟨.writing codec frame size rest, rfl, (request_stays _ _).goes (suspend_goes h run)⟩

theorem send_goes {turn : Turn} (h : turn.connection.state = .active) (run : Run)
    (codec : LinkCodec) (frame : Frame) :
    ∃ await : Await, await.state = .active ∧
      Goes turn (turn.send run codec frame) [] (.running run await) := by
  unfold send
  simp only []
  split
  next => exact ⟨.watching (codec.encode frame .empty).codec, rfl, watch_goes h run _⟩
  next => exact write_goes h run _ frame _ _

theorem publish_stays (turn : Turn) (frame : Frame) : Stays turn (turn.publish frame) := by
  unfold publish
  simp only []
  split_ifs <;> constructor <;> rfl

theorem foldl_publish_stays (frames : List Frame) (turn : Turn) :
    Stays turn (frames.foldl publish turn) := by
  induction frames generalizing turn with
  | nil => constructor <;> rfl
  | cons frame frames ih => exact (turn.publish_stays frame).trans (ih _)

end Turn

end LiveRelay
