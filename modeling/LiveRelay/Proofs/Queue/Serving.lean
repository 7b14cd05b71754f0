import LiveRelay.Proofs.Endpoint.FanOut
import LiveRelay.Queue.Waiting

/-! # What an operation does to a queue

Waiting, looking again in vain and giving up only concern the line of the takers. Behind that
line an operation does one of four things to the queue: it puts a frame in, it takes one out,
it closes the queue, or it leaves the queue as it is.

Whichever it is, what was buffered and what came is what left, what is buffered and what was
discarded, in this order.
-/

namespace LiveRelay

/-- What can be done to a queue. -/
inductive QueueAct where
  | push (frame : Frame)
  /-- Takes a frame without waiting for one. -/
  | pop
  /-- Takes a frame, and gets in line as `id` if there is none. -/
  | wait (id : Nat)
  /-- Lets a taker in line look again. -/
  | poll (id : Nat)
  /-- Lets a taker in line give up. -/
  | cancel (id : Nat)
  | close
  deriving DecidableEq

/-- What an operation on a queue answers. -/
inductive QueueAnswer where
  | pushed (taken : Bool)
  | popped (popped : Popped)
  | cancelled (waited : Bool)
  | closed
  /-- Nobody waits under the name that was given. -/
  | nobody
  deriving DecidableEq

/-- An operation on a queue, with what it found, answered and left. -/
structure QueueStep where
  before : WaitingQueue
  act : QueueAct
  answer : QueueAnswer
  after : WaitingQueue
  deriving DecidableEq

/-- How a frame can leave a queue before it is closed. -/
inductive Fate where
  | handedOut
  | dropped
  deriving DecidableEq

/-- A frame that has left a queue. -/
structure Departure where
  frame : Frame
  fate : Fate
  deriving DecidableEq

namespace QueueStep

/-- The frame that the queue took. -/
def accepted (step : QueueStep) : List Frame :=
  match step.act, step.answer with
  | .push frame, .pushed true => [frame]
  | _, _ => []

/-- The frame that a taker got. -/
def handedOut (step : QueueStep) : List Frame :=
  match step.answer with
  | .popped (.frame frame) => [frame]
  | _ => []

/-- Whether the queue took a frame for which it had no room. -/
def Overflows (step : QueueStep) : Prop :=
  step.accepted ≠ [] ∧ step.before.queue.frames.length = step.before.queue.capacity

instance (step : QueueStep) : Decidable step.Overflows :=
  inferInstanceAs (Decidable (_ ∧ _))

/-- The frame that was given up: the oldest, when one too many was taken. -/
def dropped (step : QueueStep) : List Frame :=
  if step.Overflows then step.before.queue.frames.take 1 else []

/-- The frames that were discarded with the queue. -/
def discarded (step : QueueStep) : List Frame :=
  if step.act = .close then step.before.queue.frames else []

/-- The frames that left the queue, other than by its being closed. -/
def departures (step : QueueStep) : List Departure :=
  step.handedOut.map (⟨·, .handedOut⟩) ++ step.dropped.map (⟨·, .dropped⟩)

end QueueStep

namespace WaitingQueue

/-- Does one thing to a queue. -/
def act (room : WaitingQueue) : QueueAct → QueueAnswer × WaitingQueue
  | .push frame => (.pushed (room.push frame).1, (room.push frame).2)
  | .pop => (.popped room.pop.1, room.pop.2)
  | .wait id => (.popped (room.wait id).1, (room.wait id).2)
  | .poll id =>
      match room.poll id with
      | none => (.nobody, room)
      | some (popped, after) => (.popped popped, after)
  | .cancel id => (.cancelled (room.cancel id).1, (room.cancel id).2)
  | .close => (.closed, room.close)

/-- One operation as a step. -/
def stepOf (room : WaitingQueue) (act : QueueAct) : QueueStep :=
  ⟨room, act, (room.act act).1, (room.act act).2⟩

/-- What a queue is after some operations. -/
def afterAll (room : WaitingQueue) (acts : List QueueAct) : WaitingQueue :=
  acts.foldl (fun room act => (room.act act).2) room

/-- The steps that some operations are. -/
def history (room : WaitingQueue) : List QueueAct → List QueueStep
  | [] => []
  | act :: acts => room.stepOf act :: (room.act act).2.history acts

theorem afterAll_append (room : WaitingQueue) (first rest : List QueueAct) :
    room.afterAll (first ++ rest) = (room.afterAll first).afterAll rest := by
  unfold afterAll
  rw [List.foldl_append]

theorem history_append (room : WaitingQueue) (first rest : List QueueAct) :
    room.history (first ++ rest) = room.history first ++ (room.afterAll first).history rest := by
  induction first generalizing room with
  | nil => rfl
  | cons act first ih =>
      rw [List.cons_append, history, history, ih, List.cons_append]
      rfl

/-! ## What an operation does to the queue behind the line -/

variable {room : WaitingQueue}

@[simp] theorem queue_notifyOne (room : WaitingQueue) : room.notifyOne.queue = room.queue := by
  unfold notifyOne
  split_ifs <;> rfl

@[simp] theorem queue_notifyAll (room : WaitingQueue) : room.notifyAll.queue = room.queue := rfl

@[simp] theorem queue_close (room : WaitingQueue) : room.close.queue = room.queue.close := by
  rw [close, queue_notifyOne, queue_notifyAll]

theorem queue_cancel (room : WaitingQueue) (id : Nat) :
    (room.cancel id).2.queue = room.queue := by
  unfold cancel
  split
  · rfl
  · exact queue_notifyOne _
  · rfl

/-- A queue that has nothing to give stays as it is. -/
theorem pop_of_pending {queue : SinkQueue} (h : queue.pop.1 = .pending) :
    queue.pop.2 = queue := by
  unfold SinkQueue.pop at h ⊢
  split_ifs at h ⊢
  split at h
  next => rfl
  next => cases h

/-- Taking from the room is taking from the queue. -/
theorem pop_eq (room : WaitingQueue) :
    room.pop.1 = room.queue.pop.1 ∧ room.pop.2.queue = room.queue.pop.2 := by
  unfold pop
  split
  next queue hpop =>
    have hqueue : room.queue.pop.2 = room.queue := pop_of_pending (by rw [hpop])
    exact ⟨by rw [hpop], hqueue.symm⟩
  next popped queue hnot hpop => exact ⟨by rw [hpop], by rw [hpop]⟩

/-- Pushing into the room is pushing into the queue, if it is open. -/
theorem push_eq (room : WaitingQueue) (frame : Frame) : room.push frame =
    if room.queue.closed then (false, room)
    else (true, notifyOne { room with queue := room.queue.push frame }) := by
  unfold push
  have hanswer := room.queue.fst_offer frame
  split
  next hoffer =>
    rw [hoffer] at hanswer
    rw [if_pos (by simpa using hanswer)]
  next queue hoffer =>
    rw [hoffer] at hanswer
    rw [if_neg (by simpa using hanswer), SinkQueue.push, hoffer]

/-- Getting in line only matters to the line. -/
theorem wait_eq (room : WaitingQueue) (id : Nat) :
    (room.wait id).1 = room.queue.pop.1 ∧ (room.wait id).2.queue = room.queue.pop.2 := by
  obtain ⟨hanswer, hqueue⟩ := room.pop_eq
  unfold wait
  split
  next after hpop =>
    rw [hpop] at hanswer hqueue
    exact ⟨hanswer, hqueue⟩
  next => exact ⟨hanswer, hqueue⟩

/-- One that looks again takes a frame as any other does, or nothing happens. -/
theorem poll_cases {id : Nat} {popped : Popped} {after : WaitingQueue}
    (h : room.poll id = some (popped, after)) :
    (popped = .pending ∧ after = room) ∨
      (popped = room.queue.pop.1 ∧ after.queue = room.queue.pop.2) := by
  obtain ⟨waiter, -, heq⟩ := Option.map_eq_some_iff.mp h
  split at heq
  next =>
    cases heq
    exact .inl ⟨rfl, rfl⟩
  next =>
    obtain ⟨hanswer, hqueue⟩ := (room.without id).wait_eq id
    rw [heq] at hanswer hqueue
    exact .inr ⟨hanswer, hqueue⟩

end WaitingQueue

/-! ## Operations without waiting -/

/-- What can be done to the queue of one sink. -/
inductive SinkAct where
  | push (frame : Frame)
  /-- Takes a frame without waiting for one. -/
  | pop
  | close
  deriving DecidableEq

/-- Does one thing to a queue. -/
def SinkQueue.act (queue : SinkQueue) : SinkAct → QueueAnswer × SinkQueue
  | .push frame => (.pushed (queue.offer frame).1, queue.push frame)
  | .pop => (.popped queue.pop.1, queue.pop.2)
  | .close => (.closed, queue.close)

/-- The same operation on a queue for which others wait. -/
def SinkAct.queueAct : SinkAct → QueueAct
  | .push frame => .push frame
  | .pop => .pop
  | .close => .close

/-- Whoever waits for a queue, an operation on it comes to the same. -/
theorem WaitingQueue.act_queueAct (room : WaitingQueue) (act : SinkAct) :
    (room.act act.queueAct).1 = (room.queue.act act).1 ∧
      (room.act act.queueAct).2.queue = (room.queue.act act).2 := by
  cases act with
  | push frame =>
      rw [SinkAct.queueAct, WaitingQueue.act, SinkQueue.act, SinkQueue.fst_offer, push_eq]
      split_ifs with hclosed
      · rw [hclosed, SinkQueue.push_eq, if_pos hclosed]
        exact ⟨rfl, rfl⟩
      · rw [queue_notifyOne, Bool.eq_false_iff.mpr hclosed]
        exact ⟨rfl, rfl⟩
  | pop =>
      obtain ⟨hanswer, hqueue⟩ := room.pop_eq
      exact ⟨congrArg QueueAnswer.popped hanswer, hqueue⟩
  | close => exact ⟨rfl, room.queue_close⟩

/-! ## How a queue serves -/

/-- What an operation can do to a queue, with its answer. -/
inductive Serves (queue : SinkQueue) : QueueAct → QueueAnswer → SinkQueue → Prop
  | takes {frame : Frame} (hopen : queue.closed = false) :
      Serves queue (.push frame) (.pushed true) (queue.push frame)
  | hands {act : QueueAct} {frame : Frame} {rest : SinkQueue}
      (hpop : queue.pop = (.frame frame, rest)) (hact : act ≠ .close) :
      Serves queue act (.popped (.frame frame)) rest
  | closes : Serves queue .close .closed queue.close
  | rests {act : QueueAct} {answer : QueueAnswer} (hclose : act ≠ .close)
      (hpushed : answer ≠ .pushed true) (hpopped : ∀ frame, answer ≠ .popped (.frame frame)) :
      Serves queue act answer queue

namespace Serves

/-- Every attempt to take a frame is served alike, whoever makes it. -/
theorem of_pop {queue : SinkQueue} {act : QueueAct} (hact : act ≠ .close) :
    Serves queue act (.popped queue.pop.1) queue.pop.2 := by
  unfold SinkQueue.pop
  split_ifs with hclosed
  · exact .rests hact (by simp) (by simp)
  · split
    next => exact .rests hact (by simp) (by simp)
    next frame rest hframes =>
      apply Serves.hands _ hact
      rw [SinkQueue.pop, if_neg hclosed, hframes]

end Serves

namespace WaitingQueue

/-- Whatever is done to the room, the queue behind it serves it in one of four ways. -/
theorem serves (room : WaitingQueue) (act : QueueAct) :
    Serves room.queue act (room.act act).1 (room.act act).2.queue := by
  cases act with
  | push frame =>
      rw [WaitingQueue.act, push_eq]
      split_ifs with hclosed
      · exact .rests (by simp) (by simp) (by simp)
      · rw [queue_notifyOne]
        exact .takes (by simpa using hclosed)
  | pop =>
      obtain ⟨hanswer, hqueue⟩ := room.pop_eq
      rw [WaitingQueue.act, hanswer, hqueue]
      exact .of_pop (by simp)
  | wait id =>
      obtain ⟨hanswer, hqueue⟩ := room.wait_eq id
      rw [WaitingQueue.act, hanswer, hqueue]
      exact .of_pop (by simp)
  | poll id =>
      rw [WaitingQueue.act]
      split
      next => exact .rests (by simp) (by simp) (by simp)
      next popped after hpoll =>
        rcases poll_cases hpoll with ⟨rfl, rfl⟩ | ⟨hanswer, hqueue⟩
        · exact .rests (by simp) (by simp) (by simp)
        · rw [hanswer, hqueue]
          exact .of_pop (by simp)
  | cancel id =>
      rw [WaitingQueue.act, queue_cancel]
      exact .rests (by simp) (by simp) (by simp)
  | close =>
      rw [WaitingQueue.act, queue_close]
      exact .closes

end WaitingQueue

/-! ## The account of one step -/

namespace SinkQueue

variable {queue : SinkQueue}

theorem capacity_of_pop {rest : SinkQueue} {frame : Frame}
    (h : queue.pop = (.frame frame, rest)) : rest.capacity = queue.capacity := by
  unfold pop at h
  split_ifs at h
  · cases h
  · split at h
    next => cases h
    next => cases h; rfl

/-- A queue holds no more than it has room for, and a closed one holds nothing. -/
structure IsSettled (queue : SinkQueue) : Prop where
  within : queue.frames.length ≤ queue.capacity
  closed : queue.closed = true → queue.frames = []

theorem close_of_closed (hclosed : queue.closed = true) (hframes : queue.frames = []) :
    queue.close = queue := by
  rw [close, ← hclosed, ← hframes]

/-- With room, a frame is put behind the others. -/
theorem push_of_room (hopen : queue.closed = false)
    (hroom : queue.frames.length < queue.capacity) (frame : Frame) :
    queue.push frame = { queue with frames := queue.frames ++ [frame] } := by
  rw [push_eq, if_neg (by simp [hopen]), if_pos hroom]

/-- Without room, the oldest frame makes way and is counted. -/
theorem push_of_full (hopen : queue.closed = false)
    (hfull : queue.frames.length = queue.capacity) (frame : Frame) :
    ∃ oldest rest, queue.frames = oldest :: rest ∧ queue.push frame =
      { queue with frames := rest ++ [frame], dropped := queue.dropped + 1 } := by
  have hpos := queue.capacity_pos
  match hframes : queue.frames with
  | [] =>
      rw [hframes] at hfull
      simp only [List.length_nil] at hfull
      omega
  | oldest :: rest =>
      refine ⟨oldest, rest, rfl, ?_⟩
      rw [push_eq, if_neg (by simp [hopen]), if_neg (by omega), hframes, List.tail_cons]

end SinkQueue

namespace QueueStep

variable {step : QueueStep}

/-- The account of one step: what was buffered and what came is what left, what is buffered
and what was discarded, in this order. -/
structure IsFair (step : QueueStep) : Prop where
  account : step.before.queue.frames ++ step.accepted =
    step.departures.map Departure.frame ++ step.after.queue.frames ++ step.discarded
  counted : step.after.queue.dropped = step.before.queue.dropped + step.dropped.length
  capacity : step.after.queue.capacity = step.before.queue.capacity
  settled : step.after.queue.IsSettled
  /-- Only an open queue takes anything, or changes. -/
  closed : step.before.queue.closed = true →
    step.accepted = [] ∧ step.after.queue = step.before.queue
  closes : step.act = .close → step.after.queue.closed = true
  stays : step.act ≠ .close → step.after.queue.closed = step.before.queue.closed

theorem accepted_of_pushed {frame : Frame} (hact : step.act = .push frame)
    (hanswer : step.answer = .pushed true) : step.accepted = [frame] := by
  rw [accepted, hact, hanswer]

theorem accepted_of_not_pushed (h : step.answer ≠ .pushed true) : step.accepted = [] := by
  unfold accepted
  split
  next hanswer => exact absurd hanswer h
  next => rfl

theorem exists_of_accepted (h : step.accepted ≠ []) :
    ∃ frame, step.act = .push frame ∧ step.answer = .pushed true := by
  unfold accepted at h
  split at h
  next frame hact hanswer => exact ⟨frame, hact, hanswer⟩
  next => exact absurd rfl h

theorem handedOut_of_not_popped (h : ∀ frame, step.answer ≠ .popped (.frame frame)) :
    step.handedOut = [] := by
  unfold handedOut
  split
  next frame hanswer => exact absurd hanswer (h frame)
  next => rfl

/-- What a queue gives is its oldest frame, if it holds any. -/
theorem handedOut_of_pop (hanswer : step.answer = .popped step.before.queue.pop.1)
    (hsettled : step.before.queue.IsSettled) :
    step.handedOut = step.before.queue.frames.take 1 := by
  rw [handedOut, hanswer, SinkQueue.pop]
  split_ifs with hclosed
  · rw [hsettled.closed hclosed]
    rfl
  · cases step.before.queue.frames <;> rfl

theorem dropped_of_not_pushed (h : step.answer ≠ .pushed true) : step.dropped = [] :=
  if_neg fun hover => hover.1 (accepted_of_not_pushed h)

theorem discarded_of_ne (h : step.act ≠ .close) : step.discarded = [] := if_neg h

/-- A push that the queue takes puts its frame behind the others, and the oldest makes way if
there was no room. -/
theorem isFair_of_takes {frame : Frame} (hact : step.act = .push frame)
    (hanswer : step.answer = .pushed true)
    (hopen : step.before.queue.closed = false)
    (hafter : step.after.queue = step.before.queue.push frame)
    (hsettled : step.before.queue.IsSettled) : step.IsFair := by
  have haccepted := accepted_of_pushed hact hanswer
  have hnone : step.handedOut = [] := handedOut_of_not_popped (by simp [hanswer])
  have hkept : step.discarded = [] := discarded_of_ne (by simp [hact])
  have hclosed : step.after.queue.closed = false := by
    rw [hafter, SinkQueue.closed_push, hopen]
  have hwithin := hsettled.within
  by_cases hroom : step.before.queue.frames.length < step.before.queue.capacity
  case pos =>
    rw [SinkQueue.push_of_room hopen hroom] at hafter
    have hdropped : step.dropped = [] := if_neg fun hover => by
      have hfull := hover.2
      omega
    constructor
    case account => simp [departures, hnone, hdropped, haccepted, hkept, hafter]
    case counted => rw [hafter, hdropped]; rfl
    case capacity => rw [hafter]
    case settled =>
      refine ⟨?_, by simp [hclosed]⟩
      rw [hafter]
      simp only [List.length_append, List.length_singleton]
      exact hroom
    case closed => simp [hopen]
    case closes => simp [hact]
    case stays => exact fun _ => hclosed.trans hopen.symm
  case neg =>
    have hfull : step.before.queue.frames.length = step.before.queue.capacity := by omega
    obtain ⟨oldest, rest, hframes, hpush⟩ := SinkQueue.push_of_full hopen hfull frame
    rw [hpush] at hafter
    have hdropped : step.dropped = [oldest] := by
      rw [dropped, if_pos ⟨by simp [haccepted], hfull⟩, hframes]
      rfl
    constructor
    case account => simp [departures, hnone, hdropped, haccepted, hkept, hafter, hframes]
    case counted => rw [hafter, hdropped]; rfl
    case capacity => rw [hafter]
    case settled =>
      rw [hframes, List.length_cons] at hfull
      exact ⟨by simp [hafter, ← hfull], by simp [hclosed]⟩
    case closed => simp [hopen]
    case closes => simp [hact]
    case stays => exact fun _ => hclosed.trans hopen.symm

/-- One that is handed a frame takes the oldest, and leaves the rest. -/
theorem isFair_of_hands {frame : Frame} (hact : step.act ≠ .close)
    (hanswer : step.answer = .popped (.frame frame))
    (hpop : step.before.queue.pop = (.frame frame, step.after.queue))
    (hsettled : step.before.queue.IsSettled) : step.IsFair := by
  obtain ⟨hframes, hcount, hclosed⟩ := SinkQueue.eq_of_pop hpop
  have hcapacity := SinkQueue.capacity_of_pop hpop
  have haccepted : step.accepted = [] := accepted_of_not_pushed (by simp [hanswer])
  have hdropped : step.dropped = [] := dropped_of_not_pushed (by simp [hanswer])
  have hone : step.handedOut = [frame] := by rw [handedOut, hanswer]
  have hopen : step.before.queue.closed = false := by
    by_contra hclosed
    have hnil := hsettled.closed (by simpa using hclosed)
    rw [hframes] at hnil
    cases hnil
  constructor
  case account =>
    simp [departures, hone, hdropped, haccepted, discarded_of_ne hact, hframes]
  case counted => rw [hdropped]; exact hcount
  case capacity => exact hcapacity
  case settled =>
    have hwithin := hsettled.within
    rw [hframes, List.length_cons] at hwithin
    exact ⟨by omega, by simp [hclosed, hopen]⟩
  case closed => simp [hopen]
  case closes => exact fun h => absurd h hact
  case stays => exact fun _ => hclosed

/-- Closing discards what is buffered, and is the end of it. -/
theorem isFair_of_closes (hact : step.act = .close) (hanswer : step.answer = .closed)
    (hafter : step.after.queue = step.before.queue.close)
    (hsettled : step.before.queue.IsSettled) : step.IsFair := by
  have haccepted : step.accepted = [] := accepted_of_not_pushed (by simp [hanswer])
  have hdropped : step.dropped = [] := dropped_of_not_pushed (by simp [hanswer])
  have hnone : step.handedOut = [] := handedOut_of_not_popped (by simp [hanswer])
  have hall : step.discarded = step.before.queue.frames := if_pos hact
  constructor
  case account =>
    simp [departures, hnone, hdropped, haccepted, hall, hafter, SinkQueue.close]
  case counted => rw [hafter, hdropped]; rfl
  case capacity => rw [hafter]; rfl
  case settled => rw [hafter]; exact ⟨Nat.zero_le _, fun _ => rfl⟩
  case closed =>
    intro hclosed
    exact ⟨haccepted, hafter.trans (SinkQueue.close_of_closed hclosed (hsettled.closed hclosed))⟩
  case closes => rw [hafter]; exact fun _ => rfl
  case stays => exact fun h => absurd hact h

/-- Whatever else is asked of a queue leaves it as it is. -/
theorem isFair_of_rests (hact : step.act ≠ .close) (hpushed : step.answer ≠ .pushed true)
    (hpopped : ∀ frame, step.answer ≠ .popped (.frame frame))
    (hafter : step.after.queue = step.before.queue)
    (hsettled : step.before.queue.IsSettled) : step.IsFair := by
  have haccepted := accepted_of_not_pushed hpushed
  have hdropped := dropped_of_not_pushed hpushed
  have hnone := handedOut_of_not_popped hpopped
  constructor
  case account =>
    simp [departures, hnone, hdropped, haccepted, discarded_of_ne hact, hafter]
  case counted => rw [hafter, hdropped]; rfl
  case capacity => rw [hafter]
  case settled => rwa [hafter]
  case closed => exact fun _ => ⟨haccepted, hafter⟩
  case closes => exact fun h => absurd h hact
  case stays => rw [hafter]; exact fun _ => rfl

/-- A step is fair when the queue is served in one of the four ways. -/
theorem isFair_of_serves
    (hserves : Serves step.before.queue step.act step.answer step.after.queue)
    (hsettled : step.before.queue.IsSettled) : step.IsFair := by
  generalize hact : step.act = act at hserves
  generalize hanswer : step.answer = answer at hserves
  generalize hafter : step.after.queue = after at hserves
  cases hserves with
  | takes hopen => exact isFair_of_takes hact hanswer hopen hafter hsettled
  | hands hpop hne =>
      subst hafter hact
      exact isFair_of_hands hne hanswer hpop hsettled
  | closes => exact isFair_of_closes hact hanswer hafter hsettled
  | rests hclose hpushed hpopped =>
      subst hact hanswer
      exact isFair_of_rests hclose hpushed hpopped hafter hsettled

/-- A push without room drops the oldest frame and puts its own behind the others. -/
theorem overflows_of_serves
    (hserves : Serves step.before.queue step.act step.answer step.after.queue)
    (hsettled : step.before.queue.IsSettled) (hover : step.Overflows) :
    ∃ oldest rest, step.before.queue.frames = oldest :: rest ∧
      step.departures = [⟨oldest, .dropped⟩] ∧
      step.after.queue.frames = rest ++ step.accepted ∧
      step.after.queue.dropped = step.before.queue.dropped + 1 := by
  have hfair := isFair_of_serves hserves hsettled
  obtain ⟨frame, hact, hpushed⟩ := exists_of_accepted hover.1
  match hframes : step.before.queue.frames with
  | [] =>
      have hfull := hover.2
      have hpos := step.before.queue.capacity_pos
      rw [hframes, List.length_nil] at hfull
      omega
  | oldest :: rest =>
      have hdropped : step.dropped = [oldest] := by
        rw [dropped, if_pos hover, hframes]
        rfl
      have hdepartures : step.departures = [⟨oldest, .dropped⟩] := by
        rw [departures, hdropped, handedOut_of_not_popped (by simp [hpushed])]
        rfl
      have haccount := hfair.account
      rw [hframes, hdepartures, discarded_of_ne (by simp [hact]), List.append_nil] at haccount
      refine ⟨oldest, rest, rfl, hdepartures, ?_, ?_⟩
      · exact (List.tail_eq_of_cons_eq haccount).symm
      · rw [hfair.counted, hdropped]
        rfl

/-- Otherwise what leaves a queue has been handed out, and nothing is counted. -/
theorem keeps_of_serves
    (hserves : Serves step.before.queue step.act step.answer step.after.queue)
    (hsettled : step.before.queue.IsSettled) (hfits : ¬ step.Overflows) :
    (∀ departure ∈ step.departures, departure.fate = .handedOut) ∧
      step.after.queue.dropped = step.before.queue.dropped := by
  have hdropped : step.dropped = [] := if_neg hfits
  constructor
  · intro departure hmem
    rw [departures, hdropped, List.map_nil, List.append_nil] at hmem
    obtain ⟨frame, -, rfl⟩ := List.mem_map.mp hmem
    rfl
  · rw [(isFair_of_serves hserves hsettled).counted, hdropped]
    rfl

/-- A step that hands nothing out and takes nothing, and does not close, changes nothing. -/
theorem idle_of_serves (hserves : Serves step.before.queue step.act step.answer step.after.queue)
    (haccepted : step.accepted = []) (hhanded : step.handedOut = []) (hact : step.act ≠ .close) :
    step.after.queue = step.before.queue := by
  unfold accepted at haccepted
  unfold handedOut at hhanded
  generalize step.act = act at hserves haccepted hact
  generalize step.answer = answer at hserves haccepted hhanded
  generalize step.after.queue = after at hserves ⊢
  cases hserves with
  | takes => simp at haccepted
  | hands => simp at hhanded
  | closes => exact absurd rfl hact
  | rests => rfl

/-- The frames with one fate, among those that all have one. -/
theorem filter_fate (frames : List Frame) (fate kept : Fate) :
    ((frames.map (Departure.mk · fate)).filter (·.fate = kept)).map Departure.frame =
      if fate = kept then frames else [] := by
  induction frames with
  | nil => split_ifs <;> rfl
  | cons frame frames ih =>
      split_ifs at ih ⊢ with hfate
      · rw [List.map_cons, List.filter_cons_of_pos (by simpa using hfate), List.map_cons, ih]
      · rw [List.map_cons, List.filter_cons_of_neg (by simpa using hfate), ih]

/-- The handed out among the frames that left are those that the takers got. -/
theorem handedOut_eq (step : QueueStep) :
    step.handedOut = (step.departures.filter (·.fate = .handedOut)).map Departure.frame := by
  rw [departures, List.filter_append, List.map_append, filter_fate, filter_fate,
    if_pos rfl, if_neg (by decide), List.append_nil]

/-- The others are those that were given up. -/
theorem dropped_eq (step : QueueStep) :
    step.dropped = (step.departures.filter (·.fate = .dropped)).map Departure.frame := by
  rw [departures, List.filter_append, List.map_append, filter_fate, filter_fate,
    if_pos rfl, if_neg (by decide), List.nil_append]

end QueueStep

end LiveRelay
