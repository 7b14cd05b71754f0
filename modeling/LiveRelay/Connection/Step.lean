import LiveRelay.Connection.Basic

/-! # The steps of a connection

A connection is `start`ed once, `resume`d by every signal, and `close`d from outside.
It goes round in a loop: get a link, move frames until the link fails, wait, and again,
until the retries are used up or it is told to stop. Being told to stop comes before
everything else: a cancelled task ends its run at its next step, whatever the signal.
-/

namespace LiveRelay

namespace Turn

/-- The address of the peer, for messages. -/
def address (turn : Turn) : String := turn.connection.config.address

/-- Ends the run. The listener is let go before the connection is closed; a run that has
been cancelled passes through draining. -/
def finish (turn : Turn) (run : Run) (cancelled : Bool) (failure : Option ConnectionError) :
    Turn :=
  let used := run.budget.used
  let turn := if cancelled then turn.transition .draining used none else turn
  let turn := if run.listening then turn.request .unbind else turn
  let turn := turn.update fun connection => { connection with localAddress := none }
  let turn := turn.transition .closed used failure
  let turn := turn.emit (.stopped (failure.map (·.message)))
  turn.update fun connection => { connection with life := .ended failure }

/-- Calls the peer, or waits for it to call. The listener of a host is only bound once. -/
def seekLink (turn : Turn) (run : Run) : Turn :=
  match turn.connection.config.role with
  | .client =>
      (turn.request (.dial turn.connection.config.connectionTimeout)).suspend run .dialling
  | .host =>
      if run.listening then (turn.request .accept).suspend run .accepting
      else (turn.request .bind).suspend run .binding

/-- Makes an attempt to get a link. -/
def establish (turn : Turn) (run : Run) : Turn :=
  (turn.transition .establishing run.budget.used none).seekLink run

/-- Takes one retry and waits before it is made, or gives up. -/
def retry (turn : Turn) (run : Run) (failure : ConnectionError) : Turn :=
  let turn := turn.transition .reconnecting run.budget.used (some failure)
  match run.budget.consume? with
  | none => turn.finish run false (some (.budgetExhausted turn.address run.budget.used))
  | some budget =>
      (turn.request (.pause turn.connection.config.reconnectInterval)).suspend
        { run with budget } .pausing

/-- Lets go of the link. -/
def leaveLink (turn : Turn) : Turn := turn.reportDrops.request .hangUp

/-- A link that was up has failed. A single-shot host ends with it, and without a failure
if its peer just left. -/
def loseLink (turn : Turn) (run : Run) (failure : ConnectionError) : Turn :=
  let turn := turn.leaveLink
  if turn.connection.isSingleShot then
    turn.finish run false <|
      match failure with
      | .peerClosed _ => none
      | failure => some failure
  else turn.retry run failure

/-- A source waits for bytes. -/
def read (turn : Turn) (run : Run) (codec : LinkCodec) (pending : ByteArray) : Turn :=
  (turn.request (.read turn.connection.config.bufferSize)).suspend run (.reading codec pending)

/-- The most bytes that a sink reads at once. It reads only to see its peer leave. -/
def sinkReadLimit : Nat := 1024

/-- A sink waits for a frame. -/
def watch (turn : Turn) (run : Run) (codec : LinkCodec) : Turn :=
  (turn.request (.read sinkReadLimit)).suspend run (.watching codec)

/-- A link is up, with a codec of its own. -/
def linkUp (turn : Turn) (run : Run) : Turn :=
  let run := { run with budget := run.budget.reset }
  let turn := (turn.count (·.addLink)).transition .active 0 none
  let codec := LinkCodec.fresh turn.connection.config.codec
  match turn.connection.framePath with
  | .publish => turn.read run codec .empty
  | .deliver _ => turn.watch run codec

/-- The attempt to get a link has come to something. -/
def attempted (turn : Turn) (run : Run) (outcome : Except String Unit) : Turn :=
  match outcome with
  | .ok () => turn.linkUp run
  | .error cause => turn.retry run (.establish turn.address cause)

/-- The attempt to bind the listener has come to something. -/
def bound (turn : Turn) (run : Run) (outcome : Except String (Option SocketAddress)) : Turn :=
  match outcome with
  | .error cause => turn.retry run (.establish turn.address cause)
  | .ok localAddress =>
      let turn :=
        match localAddress with
        | none => turn
        | some address =>
            (turn.update fun connection =>
              { connection with localAddress := some address }).emit (.listening address)
      turn.seekLink { run with listening := true }

/-- Publishes a decoded frame. -/
def publish (turn : Turn) (frame : Frame) : Turn :=
  let (delivery, fanOut) := turn.fanOut.publish frame
  let turn := { turn with fanOut }.count (·.addFrameReceived)
  if delivery = .filtered then turn.count (·.addFiltered) else turn

/-- A source takes bytes from its peer and publishes the frames that are complete. -/
def decode (turn : Turn) (run : Run) (codec : LinkCodec) (bytes : ByteArray) : Turn :=
  let drained := codec.drain bytes
  let turn := drained.frames.foldl publish turn
  match drained.error? with
  | some error => turn.loseLink run (.codec turn.address error.message)
  | none => turn.read run drained.codec drained.buffer

/-- Something has been read, or the link has failed; `next` handles bytes. -/
def received (turn : Turn) (run : Run) (outcome : Except String ByteArray)
    (next : Turn → ByteArray → Turn) : Turn :=
  match outcome with
  | .error cause => turn.loseLink run (.link turn.address cause)
  | .ok data =>
      if data.isEmpty then turn.loseLink run (.peerClosed turn.address)
      else next (turn.count (·.addReceived data.size)) data

/-- Writes what is left of a frame, and waits for the next when nothing is. -/
def write (turn : Turn) (run : Run) (codec : LinkCodec) (frame : Frame) (size : Nat)
    (rest : ByteArray) : Turn :=
  if rest.isEmpty then (turn.count (·.addSent size)).watch run codec
  else (turn.request (.write rest)).suspend run (.writing codec frame size rest)

/-- A sink writes a frame that it has taken from its queue. One that cannot be encoded is
skipped. -/
def send (turn : Turn) (run : Run) (codec : LinkCodec) (frame : Frame) : Turn :=
  let encoding := codec.encode frame .empty
  match encoding.result with
  | .error _ => turn.watch run encoding.codec
  | .ok () => turn.write run encoding.codec frame encoding.output.size encoding.output

/-- A sink looks at its queue. When that has been closed nothing is left to do. -/
def takeFrame (turn : Turn) (run : Run) (codec : LinkCodec) : Turn :=
  match turn.connection.framePath with
  | .publish => turn
  | .deliver sink =>
      match turn.fanOut.pop sink with
      | (.pending, _) => turn
      | (.finished, _) => turn.leaveLink.finish run false none
      | (.frame frame, fanOut) => { turn with fanOut }.reportDrops.send run codec frame

/-- The link has taken some bytes of a frame, or none because it has failed. The frame
has left the queue, so then it is lost. -/
def wrote (turn : Turn) (run : Run) (codec : LinkCodec) (frame : Frame) (size : Nat)
    (rest : ByteArray) (outcome : Except String Nat) : Turn :=
  match outcome with
  | .error cause => (turn.count (·.addLost)).loseLink run (.link turn.address cause)
  | .ok 0 => (turn.count (·.addLost)).loseLink run (.link turn.address "write zero")
  | .ok taken => turn.write run codec frame size (rest.extract taken rest.size)

/-- Gives up whatever the task waits for and ends the run. -/
def cancel (turn : Turn) (run : Run) (await : Await) : Turn :=
  let turn := if await.hasLink then turn.leaveLink else turn
  turn.finish run true none

end Turn

namespace Connection

/-- Begins the run, when the token that it is given may have been cancelled already. A
connection runs at most once, and not after it has been closed. -/
def start (connection : Connection) (fanOut : FanOut) (token : Token) (cancelled : Bool) : Turn :=
  match connection.life with
  | .unstarted =>
      let run : Run := { token, budget := { policy := connection.config.reconnect } }
      let turn := { connection, fanOut : Turn }.emit .started
      if cancelled then (turn.transition .establishing run.budget.used none).finish run true none
      else turn.establish run
  | _ => { connection, fanOut }

/-- Goes on after a signal, unless the run has been cancelled. A signal that the task does
not wait for changes nothing. -/
def resume (connection : Connection) (fanOut : FanOut) (cancelled : Bool) (signal : Signal) :
    Turn :=
  let turn : Turn := { connection, fanOut }
  match connection.life with
  | .running run await =>
      if cancelled then turn.cancel run await
      else
        match await, signal with
        | .dialling, .dialled outcome => turn.attempted run outcome
        | .dialling, .timedOut =>
            turn.retry run (.establishTimeout turn.address connection.config.connectionTimeout)
        | .binding, .bound outcome => turn.bound run outcome
        | .accepting, .accepted outcome => turn.attempted run outcome
        | .reading codec pending, .received outcome =>
            turn.received run outcome fun turn data => turn.decode run codec (pending ++ data)
        | .watching codec, .received outcome =>
            turn.received run outcome fun turn _ => turn.watch run codec
        | .watching codec, .woken => turn.takeFrame run codec
        | .writing codec frame size rest, .wrote outcome =>
            turn.wrote run codec frame size rest outcome
        | .pausing, .rested => turn.establish run
        | _, _ => turn
  | _ => turn

/-- Asks the connection to close. One that never ran is closed at once. -/
def close (connection : Connection) (fanOut : FanOut) : Turn :=
  let turn : Turn := { connection := { connection with closeRequested := true }, fanOut }
  match connection.life with
  | .unstarted =>
      (turn.transition .closed 0 none).update fun connection =>
        { connection with life := .ended none }
  | _ => turn

end Connection

end LiveRelay
