import LiveRelay.Frame

/-! # The queue in front of a sink

A slow sink must not hold up its source or its siblings, so a push never waits: a
full queue gives up its oldest frame to make room.
-/

namespace LiveRelay

/-- The queue between the fan-out of an endpoint and one sink. -/
structure SinkQueue where
  capacity : Nat
  /-- The buffered frames, the oldest first. -/
  frames : List Frame := []
  closed : Bool := false
  /-- How many frames have been given up to make room. It stands for a counter of 64 bits, and no
  run counts to 2^64. -/
  dropped : Nat := 0
  capacity_pos : 0 < capacity
  deriving DecidableEq

/-- What taking a frame from a queue can come to. -/
inductive Popped where
  | frame (frame : Frame)
  /-- Nothing is buffered yet. -/
  | pending
  /-- The queue is closed, nothing will come. -/
  | finished
  deriving DecidableEq

namespace SinkQueue

/-- An empty queue for `capacity` frames, for one frame if that is zero. -/
def ofCapacity (capacity : Nat) : SinkQueue where
  capacity := max capacity 1
  capacity_pos := by omega

/-- Buffers a frame, and answers whether the queue has taken it: a closed one does not. -/
def offer (queue : SinkQueue) (frame : Frame) : Bool × SinkQueue :=
  if queue.closed then (false, queue)
  else if queue.frames.length < queue.capacity then
    (true, { queue with frames := queue.frames ++ [frame] })
  else
    (true, { queue with frames := queue.frames.tail ++ [frame], dropped := queue.dropped + 1 })

/-- The queue that a frame has been offered to. -/
def push (queue : SinkQueue) (frame : Frame) : SinkQueue := (queue.offer frame).2

/-- Takes the oldest frame, if there is one. -/
def pop (queue : SinkQueue) : Popped × SinkQueue :=
  if queue.closed then (.finished, queue)
  else
    match queue.frames with
    | [] => (.pending, queue)
    | frame :: rest => (.frame frame, { queue with frames := rest })

/-- Ends the queue and discards what it holds. -/
def close (queue : SinkQueue) : SinkQueue :=
  { queue with closed := true, frames := [] }

/-- Whether taking a frame would come to something at once. -/
def isReady (queue : SinkQueue) : Bool :=
  queue.closed || !queue.frames.isEmpty

end SinkQueue

end LiveRelay
