import LiveRelay.Filter
import LiveRelay.Queue.Basic

/-! # The fan-out of an endpoint

Every frame that a source publishes is pushed into the queue of every sink, if the
filter lets it pass. Publishing never waits. A closed fan-out takes no frames, and
closing it closes the queues.
-/

namespace LiveRelay

/-- The point of an endpoint through which all its frames go. -/
structure FanOut where
  filter : StreamFilter
  sinks : List SinkQueue
  closed : Bool := false
  deriving DecidableEq

/-- What became of a published frame. -/
inductive Delivery where
  /-- It was queued for this many sinks. -/
  | delivered (sinks : Nat)
  | filtered
  /-- The endpoint is closing. -/
  | closed
  deriving DecidableEq

namespace FanOut

/-- Offers a frame to every sink, and counts those that take it. -/
def publish (fanOut : FanOut) (frame : Frame) : Delivery × FanOut :=
  if fanOut.closed then (.closed, fanOut)
  else if fanOut.filter.allows frame then
    let offers := fanOut.sinks.map (·.offer frame)
    (.delivered (offers.countP (·.1)), { fanOut with sinks := offers.map (·.2) })
  else (.filtered, fanOut)

/-- Closes the fan-out and its queues; a second time changes nothing. -/
def close (fanOut : FanOut) : FanOut :=
  if fanOut.closed then fanOut
  else { fanOut with closed := true, sinks := fanOut.sinks.map SinkQueue.close }

/-- How many frames the queue of one sink has given up. -/
def dropped (fanOut : FanOut) (index : Nat) : Nat :=
  (fanOut.sinks[index]?.map SinkQueue.dropped).getD 0

/-- Replaces the queue of one sink. -/
def setSink (fanOut : FanOut) (index : Nat) (queue : SinkQueue) : FanOut :=
  { fanOut with sinks := fanOut.sinks.set index queue }

/-- Takes the oldest frame of one sink. A sink that is not there gets nothing. -/
def pop (fanOut : FanOut) (index : Nat) : Popped × FanOut :=
  match fanOut.sinks[index]? with
  | none => (.pending, fanOut)
  | some queue => (queue.pop.1, fanOut.setSink index queue.pop.2)

/-- Whether taking a frame of one sink would come to something at once. -/
def isReady (fanOut : FanOut) (index : Nat) : Bool :=
  fanOut.sinks[index]?.any SinkQueue.isReady

end FanOut

end LiveRelay
