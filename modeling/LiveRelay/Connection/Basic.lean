import LiveRelay.Codec.Link
import LiveRelay.Connection.Stats
import LiveRelay.Event.Basic
import LiveRelay.FanOut

/-! # Connections

A connection keeps one link to one address alive. Its task runs until it has to wait
for something, and `Await` says for what. Everything outside it, the network and the
clock, is reached by requests and answers by signals; what a step does to the
connection and the fan-out, and what it asks for and reports, is a `Turn`.
-/

namespace LiveRelay

/-- Which way the frames of a connection go. -/
inductive FramePath where
  /-- From the peer to the fan-out. -/
  | publish
  /-- From this queue of the fan-out to the peer. -/
  | deliver (sink : Nat)
  deriving DecidableEq

/-- Something that can be cancelled once and for all, and with it every run that was
given it. -/
inductive Token where
  /-- The relay's own. -/
  | relay
  /-- One of those handed in with a run. -/
  | caller (number : Nat)
  deriving DecidableEq

/-- What the task of a connection waits for. -/
inductive Await where
  /-- A call to the peer to come through. -/
  | dialling
  /-- The listener to be bound. -/
  | binding
  /-- A peer to call. -/
  | accepting
  /-- A source: bytes from the peer, when `pending` are not decoded yet. -/
  | reading (codec : LinkCodec) (pending : ByteArray)
  /-- A sink: a frame in its queue, or a sign that the peer is gone. -/
  | watching (codec : LinkCodec)
  /-- A sink: the link to take more of a frame that is encoded in `size` bytes, of which
  `rest` have not been written. -/
  | writing (codec : LinkCodec) (frame : Frame) (size : Nat) (rest : ByteArray)
  /-- The end of the reconnect interval. -/
  | pausing
  deriving DecidableEq

/-- Whether a link is up. -/
def Await.hasLink : Await → Bool
  | reading _ _ => true
  | watching _ => true
  | writing _ _ _ _ => true
  | _ => false

/-- What a run keeps from one link to the next. -/
structure Run where
  /-- Cancelling it ends the run. -/
  token : Token
  budget : RetryBudget
  /-- Whether the listener of a host is bound. -/
  listening : Bool := false
  deriving DecidableEq

/-- How far a connection has come. -/
inductive Life where
  | unstarted
  | running (run : Run) (await : Await)
  /-- Its run ended, in a failure or without one, or it was closed before it ran. -/
  | ended (failure : Option ConnectionError)
  deriving DecidableEq

/-- A link to one address that is kept alive across failures. -/
structure Connection where
  path : ComponentPath
  config : ConnectionConfig
  framePath : FramePath
  state : ConnectionState := .idle
  /-- Retries used since the last link. -/
  attempt : Nat := 0
  /-- How many of the frames that its queue gave up have been reported. It stands for a counter of
  64 bits, and no run counts to 2^64. -/
  droppedReported : Nat := 0
  lastFailure : Option ConnectionError := none
  /-- Where a host listens. -/
  localAddress : Option SocketAddress := none
  stats : ConnectionStats := {}
  /-- Whether it has been asked to close. -/
  closeRequested : Bool := false
  life : Life := .unstarted
  deriving DecidableEq

/-- What a connection asks of the network and the clock. -/
inductive Request where
  /-- Call the peer, and give up after a while. -/
  | dial (timeout : Duration)
  | bind
  | accept
  /-- Read up to `limit` bytes. -/
  | read (limit : Nat)
  /-- Write from the front of these bytes. -/
  | write (bytes : ByteArray)
  /-- Let go of the link. -/
  | hangUp
  /-- Let go of the listener. -/
  | unbind
  | pause (span : Duration)
  deriving DecidableEq

/-- What can make a waiting task go on. -/
inductive Signal where
  /-- Nothing has come from outside, but what the task shares with others may have
  changed. -/
  | woken
  | dialled (outcome : Except String Unit)
  /-- The time for a call is over. -/
  | timedOut
  /-- The listener is bound; its address may not be known. -/
  | bound (outcome : Except String (Option SocketAddress))
  | accepted (outcome : Except String Unit)
  /-- Bytes have been read, none if the peer has closed the link. -/
  | received (outcome : Except String ByteArray)
  /-- The link has taken that many bytes. -/
  | wrote (outcome : Except String Nat)
  /-- The pause is over. -/
  | rested

/-- What comes of a step of a connection. -/
inductive Effect where
  | emit (kind : EventKind)
  | request (request : Request)
  deriving DecidableEq

/-- A connection in the middle of a step, the fan-out of its endpoint, and what has come
of the step so far, in order. -/
structure Turn where
  connection : Connection
  fanOut : FanOut
  effects : List Effect := []

namespace Connection

/-- The connection of a configuration, under the endpoint at `parent`. -/
def ofConfig (parent : ComponentPath) (config : ConnectionConfig) (framePath : FramePath) :
    Connection where
  path := parent.connection config
  config := config
  framePath := framePath

/-- Whether it ends when its peer leaves. -/
def isSingleShot (connection : Connection) : Bool :=
  connection.config.role = .host ∧ connection.config.listenMode = .singleShot

end Connection

namespace Turn

def emit (turn : Turn) (kind : EventKind) : Turn :=
  { turn with effects := turn.effects ++ [.emit kind] }

def request (turn : Turn) (request : Request) : Turn :=
  { turn with effects := turn.effects ++ [.request request] }

/-- Changes the connection without anything to report. -/
def update (turn : Turn) (change : Connection → Connection) : Turn :=
  { turn with connection := change turn.connection }

def count (turn : Turn) (change : ConnectionStats → ConnectionStats) : Turn :=
  turn.update fun connection => { connection with stats := change connection.stats }

/-- Goes to another state and reports it. -/
def transition (turn : Turn) (target : ConnectionState) (attempt : Nat)
    (failure : Option ConnectionError) : Turn :=
  let change (connection : Connection) : Connection :=
    { connection with
      state := target, attempt, lastFailure := failure.or connection.lastFailure }
  (turn.update change).emit (.transition turn.connection.state target attempt failure)

/-- Waits for something. -/
def suspend (turn : Turn) (run : Run) (await : Await) : Turn :=
  turn.update fun connection => { connection with life := .running run await }

/-- Reports the frames that the queue of a sink has given up since the last report. -/
def reportDrops (turn : Turn) : Turn :=
  match turn.connection.framePath with
  | .publish => turn
  | .deliver sink =>
      let total := turn.fanOut.dropped sink
      let reported := turn.connection.droppedReported
      let turn := turn.update fun connection => { connection with droppedReported := total }
      if reported < total then turn.emit (.framesDropped (total - reported) total) else turn

end Turn

end LiveRelay
