import LiveRelay.Queue.Basic

/-! # Waiting for a frame

Takers that find a queue empty wait in line. A push wakes the one that has waited
longest, and with nobody in line leaves a permit, of which at most one is kept.
Closing wakes everybody. A woken taker only gets a frame when it looks again, and one
that gives up passes its wake-up on.
-/

namespace LiveRelay

/-- Why a taker in line has been woken. -/
inductive Wake where
  /-- By a push, which wakes nobody else. -/
  | single
  /-- Together with everybody in line. -/
  | everyone
  deriving DecidableEq

/-- A taker that found the queue empty. -/
structure Waiter where
  id : Nat
  wake : Option Wake := none
  deriving DecidableEq

/-- A queue with the takers that wait for it. -/
structure WaitingQueue where
  queue : SinkQueue
  /-- Those in line, the longest waiting first, and those woken but not back yet. -/
  waiters : List Waiter := []
  /-- A wake-up that found nobody in line. -/
  permit : Bool := false
  deriving DecidableEq

namespace WaitingQueue

def ofCapacity (capacity : Nat) : WaitingQueue := { queue := .ofCapacity capacity }

/-- Wakes the first waiter that has not been woken. -/
def wakeFirst : List Waiter → List Waiter
  | [] => []
  | waiter :: rest =>
      if waiter.wake.isNone then { waiter with wake := some .single } :: rest
      else waiter :: wakeFirst rest

/-- Hands out one wake-up: to the longest waiting, or else to the next that comes. -/
def notifyOne (room : WaitingQueue) : WaitingQueue :=
  if room.waiters.any (·.wake.isNone) then { room with waiters := wakeFirst room.waiters }
  else { room with permit := true }

/-- Wakes everybody in line. -/
def notifyAll (room : WaitingQueue) : WaitingQueue :=
  { room with waiters := room.waiters.map fun waiter =>
      if waiter.wake.isNone then { waiter with wake := some .everyone } else waiter }

/-- Buffers a frame; whether the queue took it. -/
def push (room : WaitingQueue) (frame : Frame) : Bool × WaitingQueue :=
  match room.queue.offer frame with
  | (false, _) => (false, room)
  | (true, queue) => (true, notifyOne { room with queue })

/-- Closes the queue. The permit is for a taker that looked just before. -/
def close (room : WaitingQueue) : WaitingQueue :=
  (notifyAll { room with queue := room.queue.close }).notifyOne

/-- Takes a frame without waiting for one. Looking uses up the permit. -/
def pop (room : WaitingQueue) : Popped × WaitingQueue :=
  match room.queue.pop with
  | (.pending, _) => (.pending, { room with permit := false })
  | (popped, queue) => (popped, { room with queue })

/-- Takes a frame, and gets in line if there is none. -/
def wait (room : WaitingQueue) (id : Nat) : Popped × WaitingQueue :=
  match room.pop with
  | (.pending, room) => (.pending, { room with waiters := room.waiters ++ [{ id }] })
  | done => done

/-- The waiter called `id`. -/
def waiter? (room : WaitingQueue) (id : Nat) : Option Waiter :=
  room.waiters.find? (·.id = id)

/-- The waiters other than `id`. -/
def without (room : WaitingQueue) (id : Nat) : WaitingQueue :=
  { room with waiters := room.waiters.filter (·.id ≠ id) }

/-- Lets a waiter look again. Without a wake-up it stays where it is; with one it
takes a frame, and goes to the end of the line if there is none. -/
def poll (room : WaitingQueue) (id : Nat) : Option (Popped × WaitingQueue) :=
  (room.waiter? id).map fun waiter =>
    match waiter.wake with
    | none => (.pending, room)
    | some _ => (room.without id).wait id

/-- Lets a waiter give up, and says whether it was waiting. -/
def cancel (room : WaitingQueue) (id : Nat) : Bool × WaitingQueue :=
  match room.waiter? id with
  | none => (false, room)
  | some { wake := some .single, .. } => (true, (room.without id).notifyOne)
  | some _ => (true, room.without id)

end WaitingQueue

end LiveRelay
