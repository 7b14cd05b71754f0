import LiveRelay.Proofs.Connection.Course

/-! # The farewell of a connection

A run that is told to stop ends with its next step, whatever it has been waiting for and
whatever the signal is. `Connection.farewell` is all that is seen of that step. It is only from
outside that a connection is asked to close (`closeRequested_act`).
-/

namespace LiveRelay

namespace Connection

/-- The report of a sink that leaves its link, of the frames that its queue has given up since
the last report. -/
def dropReport (connection : Connection) (fanOut : FanOut) : List EventKind :=
  match connection.framePath with
  | .publish => []
  | .deliver sink =>
      let total := fanOut.dropped sink
      let reported := connection.droppedReported
      if reported < total then [.framesDropped (total - reported) total] else []

/-- What is seen when a run ends that has been told to: it passes through draining, where a host
lets go of its listener. -/
def drain (state : ConnectionState) (run : Run) : List Effect :=
  [.emit (.transition state .draining run.budget.used none)]
    ++ (if run.listening then [.request .unbind] else [])
    ++ [.emit (.transition .draining .closed run.budget.used none), .emit (.stopped none)]

/-- What a connection shows when it is told to stop while it waits. It leaves its link first, if
that is up. -/
def farewell (connection : Connection) (fanOut : FanOut) (run : Run) (await : Await) :
    List Effect :=
  (if await.hasLink then (connection.dropReport fanOut).map .emit ++ [.request .hangUp] else [])
    ++ drain await.state run

/-- What a connection shows that is run when it has been told to stop already. -/
def vainRun : List Effect :=
  [.emit .started, .emit (.transition .idle .establishing 0 none),
    .emit (.transition .establishing .draining 0 none),
    .emit (.transition .draining .closed 0 none), .emit (.stopped none)]

/-- A connection whose run has ended because it was told to, as `after` it and `before`. -/
structure HasLeft (before after : Connection) : Prop where
  path_eq : after.path = before.path
  life_eq : after.life = .ended none
  state_eq : after.state = .closed
  localAddress_eq : after.localAddress = none
  stats_eq : after.stats = before.stats
  lastFailure_eq : after.lastFailure = before.lastFailure

/-- Being asked to close changes nothing about a connection that has left. -/
theorem HasLeft.asked {before after : Connection} (h : before.HasLeft after) (asked : Bool) :
    before.HasLeft { after with closeRequested := asked } := by
  cases h
  constructor <;> assumption

end Connection

namespace Turn

variable (turn : Turn)

theorem leaveLink_eq : turn.leaveLink.effects =
      turn.effects ++ ((turn.connection.dropReport turn.fanOut).map .emit ++ [.request .hangUp]) ∧
    turn.leaveLink.fanOut = turn.fanOut ∧
      ∃ reported, turn.leaveLink.connection =
        { turn.connection with droppedReported := reported } := by
  unfold leaveLink reportDrops Connection.dropReport
  cases turn.connection.framePath with
  | publish => exact ⟨rfl, rfl, turn.connection.droppedReported, rfl⟩
  | deliver sink =>
      simp only []
      split_ifs
      · exact ⟨List.append_assoc .., rfl, _, rfl⟩
      · exact ⟨rfl, rfl, _, rfl⟩

theorem finish_eq (run : Run) :
    (turn.finish run true none).effects =
        turn.effects ++ Connection.drain turn.connection.state run ∧
      (turn.finish run true none).fanOut = turn.fanOut ∧
        turn.connection.HasLeft (turn.finish run true none).connection := by
  unfold finish Connection.drain
  cases run.listening <;> refine ⟨?_, rfl, ?_⟩
  case false.refine_1 => simp [transition, emit, update]
  case true.refine_1 => simp [transition, emit, update, Turn.request]
  all_goals constructor <;> rfl

/-! ### Being asked to close -/

section Asked

variable (run : Run)

@[simp] theorem closeRequested_reportDrops :
    turn.reportDrops.connection.closeRequested = turn.connection.closeRequested := by
  unfold reportDrops
  split
  next => rfl
  next =>
    simp only []
    split_ifs <;> rfl

@[simp] theorem closeRequested_leaveLink :
    turn.leaveLink.connection.closeRequested = turn.connection.closeRequested :=
  turn.closeRequested_reportDrops

@[simp] theorem closeRequested_finish (cancelled : Bool) (failure : Option ConnectionError) :
    (turn.finish run cancelled failure).connection.closeRequested =
      turn.connection.closeRequested := by
  unfold finish
  cases cancelled <;> cases run.listening <;> rfl

@[simp] theorem closeRequested_seekLink :
    (turn.seekLink run).connection.closeRequested = turn.connection.closeRequested := by
  unfold seekLink
  split
  next => rfl
  next => split_ifs <;> rfl

@[simp] theorem closeRequested_establish :
    (turn.establish run).connection.closeRequested = turn.connection.closeRequested := by
  simp [establish]

@[simp] theorem closeRequested_retry (failure : ConnectionError) :
    (turn.retry run failure).connection.closeRequested = turn.connection.closeRequested := by
  unfold retry
  simp only []
  split
  next => exact closeRequested_finish _ _ _ _
  next => rfl

@[simp] theorem closeRequested_loseLink (failure : ConnectionError) :
    (turn.loseLink run failure).connection.closeRequested = turn.connection.closeRequested := by
  unfold loseLink
  simp only []
  split_ifs <;> simp

@[simp] theorem closeRequested_linkUp :
    (turn.linkUp run).connection.closeRequested = turn.connection.closeRequested := by
  unfold linkUp
  simp only []
  split <;> rfl

@[simp] theorem closeRequested_attempted (outcome : Except String Unit) :
    (turn.attempted run outcome).connection.closeRequested = turn.connection.closeRequested := by
  cases outcome <;> simp [attempted]

@[simp] theorem closeRequested_bound (outcome : Except String (Option SocketAddress)) :
    (turn.bound run outcome).connection.closeRequested = turn.connection.closeRequested := by
  cases outcome with
  | error cause => exact closeRequested_retry _ _ _
  | ok localAddress => cases localAddress <;> exact closeRequested_seekLink _ _

@[simp] theorem closeRequested_foldl_publish (frames : List Frame) :
    (frames.foldl publish turn).connection.closeRequested = turn.connection.closeRequested := by
  induction frames generalizing turn with
  | nil => rfl
  | cons frame frames ih =>
      have hfirst : (turn.publish frame).connection.closeRequested =
          turn.connection.closeRequested := by
        unfold publish
        simp only []
        split_ifs <;> rfl
      exact (ih _).trans hfirst

@[simp] theorem closeRequested_decode (codec : LinkCodec) (bytes : ByteArray) :
    (turn.decode run codec bytes).connection.closeRequested =
      turn.connection.closeRequested := by
  unfold decode
  simp only []
  split
  next => exact (closeRequested_loseLink _ _ _).trans (closeRequested_foldl_publish _ _)
  next => exact closeRequested_foldl_publish _ _

theorem closeRequested_received (outcome : Except String ByteArray)
    {next : Turn → ByteArray → Turn}
    (hnext : ∀ turn data, (next turn data).connection.closeRequested =
      turn.connection.closeRequested) :
    (turn.received run outcome next).connection.closeRequested =
      turn.connection.closeRequested := by
  unfold received
  split
  next => exact closeRequested_loseLink _ _ _
  next =>
    split_ifs
    · exact closeRequested_loseLink _ _ _
    · exact hnext _ _

@[simp] theorem closeRequested_write (codec : LinkCodec) (frame : Frame) (size : Nat)
    (rest : ByteArray) : (turn.write run codec frame size rest).connection.closeRequested =
      turn.connection.closeRequested := by
  unfold write
  split_ifs <;> rfl

@[simp] theorem closeRequested_takeFrame (codec : LinkCodec) :
    (turn.takeFrame run codec).connection.closeRequested = turn.connection.closeRequested := by
  unfold takeFrame
  split
  next => rfl
  next =>
    split
    next => rfl
    next => exact (closeRequested_finish _ _ _ _).trans (closeRequested_leaveLink _)
    next frame fanOut _ =>
      have hreport := closeRequested_reportDrops { turn with fanOut }
      unfold send
      simp only []
      split
      next => exact hreport
      next => exact (closeRequested_write _ _ _ _ _ _).trans hreport

@[simp] theorem closeRequested_wrote (codec : LinkCodec) (frame : Frame) (size : Nat)
    (rest : ByteArray) (outcome : Except String Nat) :
    (turn.wrote run codec frame size rest outcome).connection.closeRequested =
      turn.connection.closeRequested := by
  unfold wrote
  split
  next => exact closeRequested_loseLink _ _ _
  next => exact closeRequested_loseLink _ _ _
  next => exact closeRequested_write _ _ _ _ _ _

@[simp] theorem closeRequested_cancel (await : Await) :
    (turn.cancel run await).connection.closeRequested = turn.connection.closeRequested := by
  unfold cancel
  simp only []
  split_ifs <;> simp

end Asked

end Turn

namespace Connection

/-- Nothing that a run does asks the connection to close. -/
theorem closeRequested_act {act : Act} (h : act ≠ .close) (connection : Connection)
    (fanOut : FanOut) :
    (connection.act fanOut act).connection.closeRequested = connection.closeRequested := by
  cases act with
  | close => exact absurd rfl h
  | run token cancelled =>
      simp only [Connection.act, start]
      split
      next => split_ifs <;> simp
      next => rfl
  | poll cancelled signal =>
      simp only [Connection.act, resume]
      split
      next =>
        split_ifs
        · exact Turn.closeRequested_cancel _ _ _
        · split
          next => exact Turn.closeRequested_attempted _ _ _
          next => exact Turn.closeRequested_retry _ _ _
          next => exact Turn.closeRequested_bound _ _ _
          next => exact Turn.closeRequested_attempted _ _ _
          next =>
            exact Turn.closeRequested_received _ _ _ fun _ _ => Turn.closeRequested_decode _ _ _ _
          next => exact Turn.closeRequested_received _ _ _ fun _ _ => rfl
          next => exact Turn.closeRequested_takeFrame _ _ _
          next => exact Turn.closeRequested_wrote _ _ _ _ _ _ _
          next => exact Turn.closeRequested_establish _ _
          next => rfl
      next => rfl

/-- Whatever comes in, a run that is told to stop says farewell, and takes nothing from its
queue. -/
theorem resume_cancelled {connection : Connection} {run : Run} {await : Await}
    (hcoherent : connection.Coherent) (hlife : connection.life = .running run await)
    (fanOut : FanOut) (signal : Signal) :
    let turn := connection.resume fanOut true signal
    turn.effects = connection.farewell fanOut run await ∧ turn.fanOut = fanOut ∧
      connection.HasLeft turn.connection := by
  have hstate : connection.state = await.state := by
    rw [hcoherent, hlife]
    rfl
  simp only [resume, hlife, if_true, Turn.cancel, farewell, ← hstate]
  split_ifs
  · obtain ⟨heffects, hfanOut, reported, hconnection⟩ :=
      Turn.leaveLink_eq { connection, fanOut }
    obtain ⟨hends, hkept, hleft⟩ := Turn.finish_eq (Turn.leaveLink { connection, fanOut }) run
    rw [heffects, hconnection] at hends
    rw [hconnection] at hleft
    exact ⟨hends, hkept.trans hfanOut, { hleft with }⟩
  · exact Turn.finish_eq { connection, fanOut } run

/-- A run that begins when it has been told to stop already only says so. -/
theorem start_cancelled {connection : Connection} (hcoherent : connection.Coherent)
    (hlife : connection.life = .unstarted) (fanOut : FanOut) (token : Token) :
    let turn := connection.start fanOut token true
    turn.effects = vainRun ∧ turn.fanOut = fanOut ∧ connection.HasLeft turn.connection := by
  have hstate : connection.state = .idle := by
    rw [hcoherent, hlife]
    rfl
  simp only [start, hlife, if_true]
  obtain ⟨hends, hkept, hleft⟩ := Turn.finish_eq
    ((({ connection, fanOut } : Turn).emit .started).transition .establishing 0 none)
    { token, budget := { policy := connection.config.reconnect } }
  refine ⟨hends.trans ?_, hkept, { hleft with }⟩
  simp [Turn.transition, Turn.emit, Turn.update, drain, vainRun, hstate]

end Connection

end LiveRelay
