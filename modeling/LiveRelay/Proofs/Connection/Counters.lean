import Mathlib.Algebra.GroupWithZero.Nat
import LiveRelay.Proofs.Connection.Link

/-! # What a connection counts

The counters of a connection go up by what goes over its link and by what happens to frames,
and by nothing else. `act_counted` says so for one act.
-/

namespace LiveRelay

namespace FanOut

variable (fanOut : FanOut)

/-- The frames that the filter does not let pass when these are published. A fan-out that is
closed does not look at them. -/
def rejects (frames : List Frame) : List Frame :=
  if fanOut.closed then [] else frames.filter (!fanOut.filter.allows ·)

theorem rejects_cons (frame : Frame) (frames : List Frame) :
    fanOut.rejects (frame :: frames) = fanOut.rejects [frame] ++ fanOut.rejects frames := by
  unfold rejects
  split_ifs
  · rfl
  · exact List.filter_append [frame] frames

/-- Publishing changes neither the filter nor whether the fan-out is closed. -/
@[simp] theorem rejects_publish (frame : Frame) (frames : List Frame) :
    (fanOut.publish frame).2.rejects frames = fanOut.rejects frames := by
  unfold publish
  split_ifs <;> rfl

theorem rejects_singleton_of_publish (frame : Frame) :
    (fanOut.rejects [frame]).length = if (fanOut.publish frame).1 = .filtered then 1 else 0 := by
  unfold rejects publish
  split_ifs <;> simp_all

end FanOut

/-- The size, encoded, of the frame that is being written. -/
def Life.sizeInHand : Life → Nat
  | .running _ (.writing _ _ size _) => size
  | _ => 0

namespace Turn

variable (turn : Turn) (run : Run)

@[simp] theorem stats_emit (kind : EventKind) :
    (turn.emit kind).connection.stats = turn.connection.stats := rfl

@[simp] theorem stats_request (request : Request) :
    (turn.request request).connection.stats = turn.connection.stats := rfl

@[simp] theorem stats_count (change : ConnectionStats → ConnectionStats) :
    (turn.count change).connection.stats = change turn.connection.stats := rfl

@[simp] theorem stats_transition (target : ConnectionState) (attempt : Nat)
    (failure : Option ConnectionError) :
    (turn.transition target attempt failure).connection.stats = turn.connection.stats := rfl

@[simp] theorem stats_suspend (await : Await) :
    (turn.suspend run await).connection.stats = turn.connection.stats := rfl

@[simp] theorem stats_reportDrops :
    turn.reportDrops.connection.stats = turn.connection.stats := by
  unfold reportDrops
  split
  next => rfl
  next =>
    simp only []
    split_ifs <;> rfl

@[simp] theorem stats_leaveLink : turn.leaveLink.connection.stats = turn.connection.stats :=
  turn.stats_reportDrops

@[simp] theorem stats_finish (cancelled : Bool) (failure : Option ConnectionError) :
    (turn.finish run cancelled failure).connection.stats = turn.connection.stats := by
  unfold finish
  cases cancelled <;> cases run.listening <;> rfl

@[simp] theorem stats_seekLink : (turn.seekLink run).connection.stats = turn.connection.stats := by
  unfold seekLink
  split
  next => rfl
  next => split_ifs <;> rfl

@[simp] theorem stats_establish :
    (turn.establish run).connection.stats = turn.connection.stats := by
  simp [establish]

@[simp] theorem stats_retry (failure : ConnectionError) :
    (turn.retry run failure).connection.stats = turn.connection.stats := by
  unfold retry
  simp only []
  split <;> simp

@[simp] theorem stats_loseLink (failure : ConnectionError) :
    (turn.loseLink run failure).connection.stats = turn.connection.stats := by
  unfold loseLink
  simp only []
  split_ifs <;> simp

@[simp] theorem stats_cancel (await : Await) :
    (turn.cancel run await).connection.stats = turn.connection.stats := by
  unfold cancel
  simp only []
  split_ifs <;> simp

@[simp] theorem stats_read (codec : LinkCodec) (pending : ByteArray) :
    (turn.read run codec pending).connection.stats = turn.connection.stats := rfl

@[simp] theorem stats_watch (codec : LinkCodec) :
    (turn.watch run codec).connection.stats = turn.connection.stats := rfl

@[simp] theorem stats_bound (outcome : Except String (Option SocketAddress)) :
    (turn.bound run outcome).connection.stats = turn.connection.stats := by
  cases outcome with
  | error cause => exact stats_retry _ _ _
  | ok localAddress => cases localAddress <;> exact stats_seekLink _ _

@[simp] theorem stats_linkUp :
    (turn.linkUp run).connection.stats = turn.connection.stats.addLink := by
  unfold linkUp
  simp only []
  split <;> rfl

@[simp] theorem stats_write (codec : LinkCodec) (frame : Frame) (size : Nat) (rest : ByteArray) :
    (turn.write run codec frame size rest).connection.stats =
      if rest.isEmpty then turn.connection.stats.addSent size else turn.connection.stats := by
  unfold write
  split_ifs <;> rfl

/-- Every frame that is published is counted, and once more if the filter rejects it. -/
@[simp] theorem stats_foldl_publish (frames : List Frame) :
    (frames.foldl publish turn).connection.stats =
      { turn.connection.stats with
        framesReceived := turn.connection.stats.framesReceived + frames.length
        framesFiltered :=
          turn.connection.stats.framesFiltered + (turn.fanOut.rejects frames).length } := by
  induction frames generalizing turn with
  | nil => simp [FanOut.rejects]
  | cons frame frames ih =>
      have hfirst : (turn.publish frame).connection.stats =
          { turn.connection.stats with
            framesReceived := turn.connection.stats.framesReceived + 1
            framesFiltered :=
              turn.connection.stats.framesFiltered + (turn.fanOut.rejects [frame]).length } := by
        rw [FanOut.rejects_singleton_of_publish]
        unfold publish
        simp only []
        split_ifs <;> rfl
      have hfanOut : (turn.publish frame).fanOut.rejects frames = turn.fanOut.rejects frames := by
        rw [(turn.publish_publishes frame).fanOut_eq]
        exact turn.fanOut.rejects_publish frame frames
      rw [List.foldl_cons, ih, hfirst, hfanOut, turn.fanOut.rejects_cons frame frames,
        List.length_append, List.length_cons]
      simp only [ConnectionStats.mk.injEq, true_and, and_true]
      omega

@[simp] theorem stats_decode (codec : LinkCodec) (bytes : ByteArray) :
    (turn.decode run codec bytes).connection.stats =
      ((codec.drain bytes).frames.foldl publish turn).connection.stats := by
  unfold decode
  simp only []
  split
  next => exact stats_loseLink _ _ _
  next => rfl

end Turn

/-- The counters go up by what goes over the link and by what happens to frames. The bytes
that a sink reads are counted as well, though they come to nothing. -/
structure Connection.Counted (connection : Connection) (fanOut : FanOut) (traffic : Traffic)
    (handling : Handling) (after : ConnectionStats) : Prop where
  bytesReceived_eq : (∀ codec, connection.life.link? ≠ some (.watching codec)) →
    after.bytesReceived = connection.stats.bytesReceived + (traffic.read.map ByteArray.size).sum
  framesReceived_eq : after.framesReceived =
    connection.stats.framesReceived + handling.published.length
  framesFiltered_eq : after.framesFiltered =
    connection.stats.framesFiltered + (fanOut.rejects handling.published).length
  bytesSent_eq : after.bytesSent = connection.stats.bytesSent +
    if handling.written = [] then 0 else connection.life.sizeInHand
  linksEstablished_eq : after.linksEstablished =
    connection.stats.linksEstablished + traffic.opened

namespace Connection

variable {connection : Connection} {fanOut : FanOut} {run : Run} {turn : Turn}

/-- Frames that are given up change none of these counters. -/
theorem counted_unless {handling : Handling} (hpublished : handling.published = [])
    (hwritten : handling.written = []) (lost : Nat)
    (h : turn.connection.stats = { connection.stats with framesLost := lost }) :
    connection.Counted fanOut {} handling turn.connection.stats := by
  rw [h]
  constructor <;> simp [hpublished, hwritten, FanOut.rejects]

theorem counted_nothing (h : turn.connection.stats = connection.stats) :
    connection.Counted fanOut {} {} turn.connection.stats :=
  counted_unless rfl rfl connection.stats.framesLost h

theorem attempted_counted {await : Await} {signal : Signal} (outcome : Except String Unit)
    (htraffic : await.traffic signal =
      match outcome with | .ok () => { opened := 1 } | .error _ => {}) :
    connection.Counted fanOut (await.traffic signal) {}
      (({ connection, fanOut } : Turn).attempted run outcome).connection.stats := by
  rw [htraffic]
  cases outcome with
  | error cause => exact counted_nothing (by simp [Turn.attempted])
  | ok _ => constructor <;> simp [Turn.attempted, ConnectionStats.addLink, FanOut.rejects]

theorem decode_counted {codec : LinkCodec} {pending data : ByteArray} :
    connection.Counted fanOut { read := [data] }
      { published := (codec.drain (pending ++ data)).frames }
      ((({ connection, fanOut } : Turn).count (·.addReceived data.size)).decode run codec
        (pending ++ data)).connection.stats := by
  rw [Turn.stats_decode, Turn.stats_foldl_publish]
  constructor <;> simp [ConnectionStats.addReceived, Turn.count, Turn.update]

/-- A frame that comes to no bytes at all is written as soon as it is taken. -/
theorem send_counted (frame : Frame) {codec : LinkCodec}
    (hlife : connection.life = .running run (.watching codec))
    (h : turn.connection.stats = connection.stats) :
    connection.Counted fanOut {} (.ofSend codec frame)
      (turn.send run codec frame).connection.stats := by
  unfold Turn.send Handling.ofSend
  simp only []
  cases (codec.encode frame .empty).result with
  | error _ => exact counted_unless rfl rfl _ h
  | ok _ =>
      simp only [Turn.stats_write]
      split_ifs with hempty
      · have hsize : (codec.encode frame .empty).output.size = 0 := by
          simpa [ByteArray.isEmpty] using hempty
        rw [h, hsize]
        constructor <;> simp [hlife, ConnectionStats.addSent, FanOut.rejects, Life.sizeInHand]
      · exact counted_unless rfl rfl _ h

theorem takeFrame_counted {codec : LinkCodec}
    (hlife : connection.life = .running run (.watching codec)) :
    connection.Counted fanOut {}
      (Await.handling connection.framePath fanOut (.watching codec) .woken)
      (({ connection, fanOut } : Turn).takeFrame run codec).connection.stats := by
  unfold Turn.takeFrame Await.handling
  cases hpath : connection.framePath with
  | publish => exact counted_nothing rfl
  | deliver sink =>
      rcases hpop : fanOut.pop sink with ⟨popped, rest⟩
      simp only [hpop]
      cases popped with
      | pending => exact counted_nothing rfl
      | finished => exact counted_nothing (by simp)
      | frame frame => exact send_counted frame hlife (by simp)

theorem wrote_counted {codec : LinkCodec} {frame : Frame} {size : Nat} {rest : ByteArray}
    (hlife : connection.life = .running run (.writing codec frame size rest))
    (outcome : Except String Nat) :
    connection.Counted fanOut (Await.traffic (.writing codec frame size rest) (.wrote outcome))
      (.ofWrote frame rest outcome)
      (({ connection, fanOut } : Turn).wrote run codec frame size rest
        outcome).connection.stats := by
  cases outcome with
  | error cause =>
      exact counted_unless rfl rfl _ (by simp [Turn.wrote, ConnectionStats.addLost]; rfl)
  | ok taken =>
      cases taken with
      | zero =>
          have hnone : Await.traffic (.writing codec frame size rest) (.wrote (.ok 0)) = {} := by
            simp [Await.traffic]
          rw [hnone]
          exact counted_unless rfl rfl _ (by simp [Turn.wrote, ConnectionStats.addLost]; rfl)
      | succ less =>
          simp only [Turn.wrote, Turn.stats_write, Handling.ofWrote, Await.traffic]
          split_ifs
          · constructor <;> simp [hlife, ConnectionStats.addSent, FanOut.rejects, Life.sizeInHand]
          · constructor <;> simp [FanOut.rejects]

theorem resume_counted {await : Await} (hlife : connection.life = .running run await)
    (signal : Signal) :
    connection.Counted fanOut (await.traffic signal)
      (await.handling connection.framePath fanOut signal)
      (connection.resume fanOut false signal).connection.stats := by
  unfold resume
  simp only [hlife, Bool.false_eq_true, if_false]
  split
  next outcome => exact attempted_counted outcome (by cases outcome <;> rfl)
  next => exact counted_nothing (by simp)
  next outcome => exact counted_nothing (by simp)
  next outcome => exact attempted_counted outcome (by cases outcome <;> rfl)
  next codec pending outcome =>
    cases outcome with
    | error cause => exact counted_nothing (by simp [Turn.received])
    | ok data =>
        simp only [Turn.received, Await.traffic, Await.handling]
        split_ifs
        · exact counted_nothing (by simp)
        · exact decode_counted
  next codec outcome =>
    cases outcome with
    | error cause => exact counted_nothing (by simp [Turn.received])
    | ok data =>
        simp only [Turn.received]
        split_ifs
        · exact counted_nothing (by simp)
        · have hwatching : connection.life.link? = some (.watching codec) := by
            rw [hlife]
            rfl
          constructor
          case bytesReceived_eq => exact fun h => absurd hwatching (h codec)
          all_goals simp [Await.handling, Await.traffic, ConnectionStats.addReceived,
            FanOut.rejects]
  next codec => exact takeFrame_counted hlife
  next codec frame size rest outcome => exact wrote_counted hlife outcome
  next => exact counted_nothing (by simp)
  next =>
    have htraffic : await.traffic signal = {} := by
      unfold Await.traffic
      split <;> grind
    have hhandling : await.handling connection.framePath fanOut signal = {} := by
      unfold Await.handling
      split <;> grind
    rw [htraffic, hhandling]
    exact counted_nothing rfl

/-- What an act counts is what it does. -/
theorem act_counted (connection : Connection) (fanOut : FanOut) (act : Act) :
    connection.Counted fanOut (connection.traffic act) (connection.handling fanOut act)
      (connection.act fanOut act).connection.stats := by
  unfold handling traffic
  cases act with
  | run token cancelled =>
      have h : (connection.start fanOut token cancelled).connection.stats = connection.stats := by
        unfold start
        split
        next =>
          simp only []
          split_ifs <;> simp
        next => rfl
      cases connection.life <;> exact counted_nothing h
  | close =>
      have h : (connection.close fanOut).connection.stats = connection.stats := by
        unfold close
        split <;> rfl
      cases connection.life <;> exact counted_nothing h
  | poll cancelled signal =>
      cases hlife : connection.life with
      | running run await =>
          cases cancelled with
          | false => exact resume_counted hlife signal
          | true =>
              exact counted_unless rfl rfl connection.stats.framesLost
                (by simp [Connection.act, resume, hlife])
      | unstarted => exact counted_nothing (by simp [Connection.act, resume, hlife])
      | ended failure => exact counted_nothing (by simp [Connection.act, resume, hlife])

end Connection

end LiveRelay
