import LiveRelay.Proofs.Connection.Handling

/-! # What goes over the links of a connection

A connection has one link at a time, with a codec of its own. `Traffic` is what goes over its
links, and `act_flows` says what a step can do with the link: nothing, or one thing.
-/

namespace LiveRelay

/-- What goes over the links of a connection. -/
@[ext]
structure Traffic where
  /-- How many links have come up. -/
  opened : Nat := 0
  /-- The pieces that a source has read, in order. -/
  read : List ByteArray := []
  /-- The bytes that the links of a sink have taken of what it had left to write, in order. -/
  sent : ByteArray := .empty

namespace Traffic

instance : Append Traffic where
  append first second :=
    { opened := first.opened + second.opened
      read := first.read ++ second.read
      sent := first.sent ++ second.sent }

variable (first second third : Traffic)

@[simp] theorem opened_append : (first ++ second).opened = first.opened + second.opened := rfl

@[simp] theorem read_append : (first ++ second).read = first.read ++ second.read := rfl

@[simp] theorem sent_append : (first ++ second).sent = first.sent ++ second.sent := rfl

theorem append_assoc : first ++ second ++ third = first ++ (second ++ third) := by
  ext1
  · exact Nat.add_assoc ..
  · exact List.append_assoc ..
  · exact ByteArray.append_assoc

@[simp] theorem nil_append : {} ++ first = first := by
  ext1
  · exact Nat.zero_add _
  · exact List.nil_append _
  · exact ByteArray.empty_append

@[simp] theorem append_nil : first ++ {} = first := by
  ext1
  · exact Nat.add_zero _
  · exact List.append_nil _
  · exact ByteArray.append_empty

end Traffic

namespace Await

/-- What goes over the link when this is answered. -/
def traffic : Await → Signal → Traffic
  | .dialling, .dialled (.ok ()) => { opened := 1 }
  | .accepting, .accepted (.ok ()) => { opened := 1 }
  | .reading _ _, .received (.ok data) => if data.isEmpty then {} else { read := [data] }
  | .writing _ _ _ rest, .wrote (.ok taken) => { sent := rest.extract 0 taken }
  | _, _ => {}

/-- What a connection waits for first when its link is up. -/
def opening (kind : CodecKind) : FramePath → Await
  | .publish => .reading (.fresh kind) .empty
  | .deliver _ => .watching (.fresh kind)

/-- What a sink waits for when this is left of a frame. -/
def ofWrite (codec : LinkCodec) (frame : Frame) (size : Nat) (rest : ByteArray) : Await :=
  if rest.isEmpty then .watching codec else .writing codec frame size rest

/-- What a sink waits for when it has taken a frame. -/
def ofSend (codec : LinkCodec) (frame : Frame) : Await :=
  let encoding := codec.encode frame .empty
  match encoding.result with
  | .error _ => .watching encoding.codec
  | .ok () => .ofWrite encoding.codec frame encoding.output.size encoding.output

end Await

/-- What the link is used for, if it is up. -/
def Life.link? : Life → Option Await
  | .running _ await => if await.hasLink then some await else none
  | _ => none

theorem Life.running_of_link? {life : Life} {await : Await} (h : life.link? = some await) :
    ∃ run, life = .running run await := by
  unfold Life.link? at h
  split at h
  next run other =>
    split_ifs at h
    obtain rfl := Option.some.inj h
    exact ⟨run, rfl⟩
  next => cases h

/-- What goes over the links of a connection in this act. -/
def Connection.traffic (connection : Connection) (act : Act) : Traffic :=
  match connection.life, act with
  | .running _ await, .poll false signal => await.traffic signal
  | _, _ => {}

/-- What can become of the link in a step: what it was used for before and is used for after
the step, what goes over it, and what happens to frames. -/
inductive Flow (kind : CodecKind) (framePath : FramePath) (fanOut : FanOut) :
    Option Await → Traffic → Handling → Option Await → Prop
  | rests (link : Option Await) : Flow kind framePath fanOut link {} {} link
  | opens : Flow kind framePath fanOut none { opened := 1 } {} (some (.opening kind framePath))
  | ends {link : Option Await} (lost interrupted : List Frame) :
      Flow kind framePath fanOut link {} { lost, interrupted } none
  | reads {codec : LinkCodec} {pending data : ByteArray}
      (herror : (codec.drain (pending ++ data)).error? = none) :
      Flow kind framePath fanOut (some (.reading codec pending)) { read := [data] }
        { published := (codec.drain (pending ++ data)).frames }
        (some (.reading (codec.drain (pending ++ data)).codec
          (codec.drain (pending ++ data)).buffer))
  | breaks {codec : LinkCodec} {pending data : ByteArray} :
      Flow kind framePath fanOut (some (.reading codec pending)) { read := [data] }
        { published := (codec.drain (pending ++ data)).frames } none
  | takes {codec : LinkCodec} {sink : Nat} {frame : Frame} (hpath : framePath = .deliver sink)
      (hpop : (fanOut.pop sink).1 = .frame frame) :
      Flow kind framePath fanOut (some (.watching codec)) {} (.ofSend codec frame)
        (some (.ofSend codec frame))
  | writes {codec : LinkCodec} {frame : Frame} {size taken : Nat} {rest left : ByteArray}
      (hleft : rest.extract taken rest.size = left) :
      Flow kind framePath fanOut (some (.writing codec frame size rest))
        { sent := rest.extract 0 taken } { written := if left.isEmpty then [frame] else [] }
        (some (.ofWrite codec frame size left))

namespace Turn

variable (turn : Turn) (run : Run)

@[simp] theorem link?_suspend (await : Await) :
    (turn.suspend run await).connection.life.link? =
      if await.hasLink then some await else none := rfl

@[simp] theorem link?_finish (cancelled : Bool) (failure : Option ConnectionError) :
    (turn.finish run cancelled failure).connection.life.link? = none := rfl

@[simp] theorem link?_seekLink : (turn.seekLink run).connection.life.link? = none := by
  unfold seekLink
  split
  next => rfl
  next => split_ifs <;> rfl

@[simp] theorem link?_establish : (turn.establish run).connection.life.link? = none :=
  link?_seekLink _ run

@[simp] theorem link?_retry (failure : ConnectionError) :
    (turn.retry run failure).connection.life.link? = none := by
  unfold retry
  simp only []
  split <;> rfl

@[simp] theorem link?_loseLink (failure : ConnectionError) :
    (turn.loseLink run failure).connection.life.link? = none := by
  unfold loseLink
  simp only []
  split_ifs
  · rfl
  · exact link?_retry _ run failure

@[simp] theorem link?_bound (outcome : Except String (Option SocketAddress)) :
    (turn.bound run outcome).connection.life.link? = none := by
  cases outcome with
  | error cause => exact link?_retry _ run _
  | ok localAddress => exact link?_seekLink _ _

@[simp] theorem link?_linkUp : (turn.linkUp run).connection.life.link? =
    some (.opening turn.connection.config.codec turn.connection.framePath) := by
  unfold linkUp
  cases hpath : turn.connection.framePath <;> simp [hpath, count, read, watch, Await.opening,
    Await.hasLink]

@[simp] theorem link?_write (codec : LinkCodec) (frame : Frame) (size : Nat) (rest : ByteArray) :
    (turn.write run codec frame size rest).connection.life.link? =
      some (.ofWrite codec frame size rest) := by
  unfold write Await.ofWrite
  split_ifs <;> rfl

@[simp] theorem link?_send (codec : LinkCodec) (frame : Frame) :
    (turn.send run codec frame).connection.life.link? = some (.ofSend codec frame) := by
  unfold send Await.ofSend
  cases hresult : (codec.encode frame .empty).result with
  | error _ => simp only [hresult]; rfl
  | ok _ => simp only [hresult, link?_write]

end Turn

namespace Connection

variable {connection : Connection} {fanOut : FanOut} {run : Run}

/-- The link of a connection and the frames go through a step as `Flow` has it. -/
def Flows (connection : Connection) (fanOut : FanOut) (act : Act) : Prop :=
  Flow connection.config.codec connection.framePath fanOut connection.life.link?
    (connection.traffic act) (connection.handling fanOut act)
    (connection.act fanOut act).connection.life.link?

theorem takeFrame_flows {codec : LinkCodec}
    (hlife : connection.life = .running run (.watching codec)) :
    Flow connection.config.codec connection.framePath fanOut (some (.watching codec)) {}
      (Await.handling connection.framePath fanOut (.watching codec) .woken)
      (({ connection, fanOut } : Turn).takeFrame run codec).connection.life.link? := by
  have hlink : connection.life.link? = some (.watching codec) := by
    rw [hlife]
    rfl
  unfold Turn.takeFrame Await.handling
  cases hpath : connection.framePath with
  | publish =>
      simp only [hlink]
      exact .rests _
  | deliver sink =>
      rcases hpop : fanOut.pop sink with ⟨popped, rest⟩
      simp only [hpop]
      cases popped with
      | pending =>
          simp only [hlink]
          exact .rests _
      | finished => exact .ends _ _
      | frame frame =>
          simp only [Turn.link?_send]
          exact .takes rfl (by rw [hpop])

theorem decode_flows (turn : Turn) (codec : LinkCodec) (pending data : ByteArray) :
    Flow connection.config.codec connection.framePath fanOut (some (.reading codec pending))
      { read := [data] } { published := (codec.drain (pending ++ data)).frames }
      (turn.decode run codec (pending ++ data)).connection.life.link? := by
  unfold Turn.decode
  simp only []
  split
  next =>
    rw [Turn.link?_loseLink]
    exact .breaks
  next hnone => exact .reads hnone

theorem wrote_flows (turn : Turn) (codec : LinkCodec) (frame : Frame) (size : Nat)
    (rest : ByteArray) (outcome : Except String Nat) :
    Flow connection.config.codec connection.framePath fanOut
      (some (.writing codec frame size rest))
      (Await.traffic (.writing codec frame size rest) (.wrote outcome))
      (.ofWrote frame rest outcome)
      (turn.wrote run codec frame size rest outcome).connection.life.link? := by
  cases outcome with
  | error cause =>
      simp only [Turn.wrote, Turn.link?_loseLink]
      exact .ends _ _
  | ok taken =>
      cases taken with
      | zero =>
          have hnone : Await.traffic (.writing codec frame size rest) (.wrote (.ok 0)) = {} := by
            simp [Await.traffic]
          simp only [hnone, Turn.wrote, Turn.link?_loseLink]
          exact .ends _ _
      | succ less =>
          simp only [Turn.wrote, Turn.link?_write]
          exact .writes rfl

theorem resume_flows {await : Await} (hlife : connection.life = .running run await)
    (signal : Signal) :
    Flow connection.config.codec connection.framePath fanOut connection.life.link?
      (await.traffic signal) (await.handling connection.framePath fanOut signal)
      (connection.resume fanOut false signal).connection.life.link? := by
  unfold resume
  simp only [hlife, Bool.false_eq_true, if_false]
  split
  next outcome =>
    cases outcome with
    | error cause =>
        simp only [Turn.attempted, Turn.link?_retry]
        exact .rests none
    | ok _ =>
        simp only [Turn.attempted, Turn.link?_linkUp]
        exact .opens
  next =>
    simp only [Turn.link?_retry]
    exact .rests none
  next outcome =>
    rw [Turn.link?_bound]
    exact .rests none
  next outcome =>
    cases outcome with
    | error cause =>
        simp only [Turn.attempted, Turn.link?_retry]
        exact .rests none
    | ok _ =>
        simp only [Turn.attempted, Turn.link?_linkUp]
        exact .opens
  next codec pending outcome =>
    cases outcome with
    | error cause =>
        simp only [Turn.received, Turn.link?_loseLink]
        exact .ends _ _
    | ok data =>
        simp only [Turn.received, Await.traffic, Await.handling]
        split_ifs
        · rw [Turn.link?_loseLink]
          exact .ends _ _
        · exact decode_flows _ codec pending data
  next codec outcome =>
    cases outcome with
    | error cause =>
        simp only [Turn.received, Turn.link?_loseLink]
        exact .ends _ _
    | ok data =>
        simp only [Turn.received]
        split_ifs
        · rw [Turn.link?_loseLink]
          exact .ends _ _
        · exact .rests _
  next codec => exact takeFrame_flows hlife
  next codec frame size rest outcome => exact wrote_flows _ codec frame size rest outcome
  next =>
    simp only [Turn.link?_establish]
    exact .rests none
  next =>
    have htraffic : await.traffic signal = {} := by
      unfold Await.traffic
      split <;> grind
    have hhandling : await.handling connection.framePath fanOut signal = {} := by
      unfold Await.handling
      split <;> grind
    rw [htraffic, hhandling, hlife]
    exact .rests _

/-- Whatever happens to a connection, its link and the frames go through it in one of these
ways. -/
theorem act_flows (connection : Connection) (fanOut : FanOut) (act : Act) :
    connection.Flows fanOut act := by
  unfold Flows traffic handling
  cases act with
  | run token cancelled =>
      cases hlife : connection.life with
      | unstarted =>
          simp only [Connection.act, start, hlife]
          split_ifs
          · exact .rests none
          · rw [Turn.link?_establish]
            exact .rests none
      | running run await =>
          simp only [Connection.act, start, hlife]
          exact .rests _
      | ended failure =>
          simp only [Connection.act, start, hlife]
          exact .rests none
  | close =>
      cases hlife : connection.life <;> simp only [Connection.act, close, hlife] <;>
        exact .rests _
  | poll cancelled signal =>
      cases hlife : connection.life with
      | running run await =>
          cases cancelled with
          | false =>
              have hflow : Flow connection.config.codec connection.framePath fanOut
                  connection.life.link? (await.traffic signal)
                  (await.handling connection.framePath fanOut signal)
                  (connection.resume fanOut false signal).connection.life.link? :=
                resume_flows hlife signal
              rw [hlife] at hflow
              exact hflow
          | true =>
              simp only [Connection.act, resume, hlife, if_true, Turn.cancel, Turn.link?_finish]
              exact .ends _ _
      | unstarted =>
          simp only [Connection.act, resume, hlife]
          exact .rests none
      | ended failure =>
          simp only [Connection.act, resume, hlife]
          exact .rests none

end Connection

end LiveRelay
