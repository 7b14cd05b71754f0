import LiveRelay.Endpoint
import LiveRelay.Proofs.Connection.Handling
import LiveRelay.Proofs.Connection.History

/-! # What becomes of the frames of an endpoint

Any of the connections of an endpoint may act next, and its fan-out may be closed at any
time. For one sink, a `Ledger` enters every frame that was accepted, and what became of it.
-/

namespace LiveRelay

inductive EndpointAct where
  /-- One of its connections is run, looked at, or closed. -/
  | connection (index : Nat) (act : Act)
  | closeFanOut

def Endpoint.act (endpoint : Endpoint) : EndpointAct → Endpoint
  | .connection index act =>
      match endpoint.connections[index]? with
      | none => endpoint
      | some connection => endpoint.after index (connection.act endpoint.fanOut act)
  | .closeFanOut => { endpoint with fanOut := endpoint.fanOut.close }

/-- What became of the frames that were meant for one sink. -/
@[ext]
structure Ledger where
  /-- Published while the fan-out was open, and allowed by its filter. -/
  accepted : List Frame := []
  /-- Pushed into the queue of the sink while that was open. -/
  queued : List Frame := []
  /-- Written to the end. -/
  written : List Frame := []
  /-- Taken from the queue, and lost with the link. -/
  lost : List Frame := []
  /-- Taken from the queue, and given up because the run was cancelled. -/
  interrupted : List Frame := []
  /-- Taken from the queue, and not encoded. -/
  skipped : List Frame := []
  /-- In the queue when that was closed. -/
  discarded : List Frame := []

namespace Ledger

instance : Append Ledger where
  append first second :=
    { accepted := first.accepted ++ second.accepted
      queued := first.queued ++ second.queued
      written := first.written ++ second.written
      lost := first.lost ++ second.lost
      interrupted := first.interrupted ++ second.interrupted
      skipped := first.skipped ++ second.skipped
      discarded := first.discarded ++ second.discarded }

section Append

variable (first second third : Ledger)

@[simp] theorem accepted_append : (first ++ second).accepted = first.accepted ++ second.accepted :=
  rfl

@[simp] theorem queued_append : (first ++ second).queued = first.queued ++ second.queued := rfl

@[simp] theorem written_append : (first ++ second).written = first.written ++ second.written := rfl

@[simp] theorem lost_append : (first ++ second).lost = first.lost ++ second.lost := rfl

@[simp] theorem interrupted_append :
    (first ++ second).interrupted = first.interrupted ++ second.interrupted := rfl

@[simp] theorem skipped_append : (first ++ second).skipped = first.skipped ++ second.skipped := rfl

@[simp] theorem discarded_append :
    (first ++ second).discarded = first.discarded ++ second.discarded := rfl

theorem append_assoc : first ++ second ++ third = first ++ (second ++ third) := by
  ext : 1 <;> simp

@[simp] theorem append_nil : first ++ {} = first := by
  ext : 1 <;> simp

@[simp] theorem nil_append : {} ++ first = first := by
  ext : 1 <;> simp

end Append

end Ledger

/-- What settling frames enters in the ledger of a sink. -/
def Handling.settled (handling : Handling) : Ledger where
  written := handling.written
  lost := handling.lost
  interrupted := handling.interrupted
  skipped := handling.skipped

/-- An endpoint to which something happens. -/
structure EndpointStep where
  before : Endpoint
  act : EndpointAct

namespace EndpointStep

def after (step : EndpointStep) : Endpoint := step.before.act step.act

/-- What one of the connections does with frames in the step. -/
def handling (step : EndpointStep) (index : Nat) : Handling :=
  match step.act, step.before.connections[index]? with
  | .connection actor act, some connection =>
      if actor = index then connection.handling step.before.fanOut act else {}
  | _, _ => {}

def published (step : EndpointStep) : List Frame :=
  match step.act with
  | .connection actor _ => (step.handling actor).published
  | .closeFanOut => []

/-- The published frames that a queue takes: those that pass the filter, while it is open. -/
def queued (step : EndpointStep) (sink : Nat) : List Frame :=
  match step.before.fanOut.sinks[sink]? with
  | some queue =>
      if queue.closed then [] else step.published.filter step.before.fanOut.filter.allows
  | none => []

/-- What a queue still holds when it is closed. -/
def discarded (step : EndpointStep) (sink : Nat) : List Frame :=
  match step.act, step.before.fanOut.sinks[sink]? with
  | .closeFanOut, some queue => if queue.closed then [] else queue.frames
  | _, _ => []

/-- What the step enters in the ledger of a sink: of the connection at `index`, which takes
its frames from the queue `sink`. -/
def entry (step : EndpointStep) (index sink : Nat) : Ledger :=
  (step.handling index).settled
    ++ { accepted := step.before.fanOut.accepts step.published, queued := step.queued sink }
    ++ { discarded := step.discarded sink }

/-- A step in which no connection does anything with frames enters only what a closed queue
discards. -/
theorem entry_of_idle (step : EndpointStep) (h : ∀ index, step.handling index = {})
    (index sink : Nat) : step.entry index sink = { discarded := step.discarded sink } := by
  have hpublished : step.published = [] := by
    unfold published
    split
    next => rw [h]
    next => rfl
  have hqueued : step.queued sink = [] := by
    unfold queued
    split
    next => simp [hpublished]
    next => rfl
  simp [entry, h, Handling.settled, hpublished, hqueued, FanOut.accepts_nil]

end EndpointStep

namespace Endpoint

def afterAll (endpoint : Endpoint) : List EndpointAct → Endpoint
  | [] => endpoint
  | act :: acts => (endpoint.act act).afterAll acts

/-- The ledger of a sink, after all of this has happened to the endpoint. -/
def ledger (endpoint : Endpoint) (index sink : Nat) : List EndpointAct → Ledger
  | [] => {}
  | act :: acts =>
      (EndpointStep.mk endpoint act).entry index sink ++ (endpoint.act act).ledger index sink acts

end Endpoint

/-! ## Entries in a ledger -/

/-- The ledger of a sink is right for the connection and the queue. -/
structure Ledger.Accounts (ledger : Ledger) (connection : Connection) (queue : SinkQueue) :
    Prop where
  queued_eq : ledger.queued = ledger.accepted
  framesSent_eq : connection.stats.framesSent = ledger.written.length
  framesLost_eq : connection.stats.framesLost = ledger.lost.length
  /-- What was written, what is in hand and what is buffered stand in the order in which
  they were accepted. -/
  order : (ledger.written ++ connection.life.inHand ++ queue.frames).Sublist ledger.accepted
  balance : ledger.queued.length =
    queue.dropped + connection.stats.framesSent + connection.stats.framesLost +
      queue.frames.length + ledger.discarded.length +
      (connection.life.inHand.length + ledger.interrupted.length)
  /-- The run ends with the frame that is given up to its cancellation. -/
  interrupted : ledger.interrupted = [] ∨
    ledger.interrupted.length = 1 ∧ ∃ failure, connection.life = .ended failure
  skipped_eq : ledger.skipped = []

/-- The ledger of a sink balances. -/
structure Ledger.Balances (ledger : Ledger) (connection : Connection) (queue : SinkQueue) :
    Prop where
  /-- No frame is written out of order, or more often than it was accepted. -/
  written_sublist : ledger.written.Sublist ledger.accepted
  queued_eq : ledger.queued = ledger.accepted
  framesSent_eq : connection.stats.framesSent = ledger.written.length
  framesLost_eq : connection.stats.framesLost = ledger.lost.length
  /-- The last of these is what was taken from the queue and has not been settled. -/
  balance : ledger.queued.length =
    queue.dropped + connection.stats.framesSent + connection.stats.framesLost +
      queue.frames.length + ledger.discarded.length +
      (connection.life.inHand.length + ledger.interrupted.length)
  unsettled_le : connection.life.inHand.length + ledger.interrupted.length ≤ 1
  /-- A frame stays unsettled only when a cancellation has ended the run. -/
  ended_of_interrupted : ledger.interrupted ≠ [] → ∃ failure, connection.life = .ended failure
  /-- No frame is skipped because it cannot be encoded. -/
  skipped_eq : ledger.skipped = []

theorem Life.length_inHand_le (life : Life) : life.inHand.length ≤ 1 := by
  unfold inHand
  split <;> simp

namespace Ledger.Accounts

variable {ledger : Ledger} {connection : Connection} {queue : SinkQueue}

/-- Frames are pushed into the queue, as long as it is open. -/
theorem pushAll (h : ledger.Accounts connection queue) (frames : List Frame)
    (hopen : frames = [] ∨ queue.closed = false) :
    (ledger ++ { accepted := frames, queued := frames }).Accounts connection
      (queue.pushAll frames) := by
  rcases hopen with rfl | hopen
  · exact (Ledger.append_nil ledger).symm ▸ h
  · have hlength := SinkQueue.length_pushAll hopen frames
    have hbalance := h.balance
    constructor
    case queued_eq => simp [h.queued_eq]
    case framesSent_eq => simp [h.framesSent_eq]
    case framesLost_eq => simp [h.framesLost_eq]
    case order => simpa using SinkQueue.pushAll_sublist h.order frames
    case balance =>
      simp only [Ledger.queued_append, Ledger.discarded_append, Ledger.interrupted_append,
        List.length_append, List.length_nil]
      omega
    case interrupted => simpa using h.interrupted
    case skipped_eq => simp [h.skipped_eq]

/-- The queue is closed, and what it held is discarded. -/
theorem close (h : ledger.Accounts connection queue) :
    (ledger ++ { discarded := queue.frames }).Accounts connection queue.close := by
  have hbalance := h.balance
  constructor
  case queued_eq => simp [h.queued_eq]
  case framesSent_eq => simp [h.framesSent_eq]
  case framesLost_eq => simp [h.framesLost_eq]
  case order =>
    have hkept := (List.sublist_append_left _ queue.frames).trans h.order
    simpa [SinkQueue.close] using hkept
  case balance =>
    simp only [SinkQueue.close, Ledger.queued_append, Ledger.discarded_append,
      Ledger.interrupted_append, List.length_append, List.length_nil]
    omega
  case interrupted => simpa using h.interrupted
  case skipped_eq => simp [h.skipped_eq]

/-- The connection takes frames from the queue and settles what it has in hand. -/
theorem settle (h : ledger.Accounts connection queue) {handling : Handling}
    {later : Connection} {popped : SinkQueue}
    (hframes : queue.frames = handling.taken ++ popped.frames)
    (hdropped : popped.dropped = queue.dropped)
    (hsent : later.stats.framesSent = connection.stats.framesSent + handling.written.length)
    (hlost : later.stats.framesLost = connection.stats.framesLost + handling.lost.length)
    (hhand : connection.life.inHand ++ handling.taken =
      handling.written ++ handling.lost ++ handling.interrupted ++ handling.skipped ++
        later.life.inHand)
    (hinterrupted : ledger.interrupted ++ handling.interrupted = [] ∨
      (ledger.interrupted ++ handling.interrupted).length = 1 ∧
        ∃ failure, later.life = .ended failure)
    (hskipped : handling.skipped = []) :
    (ledger ++ handling.settled).Accounts later popped := by
  have hbalance := h.balance
  constructor
  case queued_eq => simp [Handling.settled, h.queued_eq]
  case framesSent_eq => simp [Handling.settled, hsent, h.framesSent_eq]
  case framesLost_eq => simp [Handling.settled, hlost, h.framesLost_eq]
  case order =>
    -- What was in hand or has been taken stands before what is still buffered, and what is
    -- left of it keeps that place.
    have hsettled : (handling.written ++ later.life.inHand).Sublist
        (connection.life.inHand ++ handling.taken) := by
      rw [hhand, List.append_assoc handling.written, List.append_assoc handling.written]
      exact (List.sublist_append_left _ _).append_right _
    have horder := h.order
    rw [hframes, List.append_assoc, ← List.append_assoc connection.life.inHand] at horder
    have hkept := ((hsettled.append_right popped.frames).append_left ledger.written).trans horder
    simpa [Handling.settled] using hkept
  case balance =>
    have hlength := congrArg List.length hhand
    have hbuffered := congrArg List.length hframes
    simp only [List.length_append, hskipped, List.length_nil] at hlength hbuffered
    simp only [Handling.settled, Ledger.queued_append, Ledger.discarded_append,
      Ledger.interrupted_append, List.length_append, List.length_nil]
    omega
  case interrupted => simpa [Handling.settled] using hinterrupted
  case skipped_eq => simp [Handling.settled, h.skipped_eq, hskipped]

theorem balances (h : ledger.Accounts connection queue) : ledger.Balances connection queue where
  written_sublist := by
    have horder := h.order
    rw [List.append_assoc] at horder
    exact (List.sublist_append_left _ _).trans horder
  queued_eq := h.queued_eq
  framesSent_eq := h.framesSent_eq
  framesLost_eq := h.framesLost_eq
  balance := h.balance
  unsettled_le := by
    rcases h.interrupted with hnone | ⟨hone, failure, hended⟩
    · rw [hnone]
      exact connection.life.length_inHand_le
    · rw [hone, hended]
      exact Nat.le_refl 1
  ended_of_interrupted := by
    intro hsome
    rcases h.interrupted with hnone | ⟨-, hended⟩
    · exact absurd hnone hsome
    · exact hended
  skipped_eq := h.skipped_eq

end Ledger.Accounts

end LiveRelay
