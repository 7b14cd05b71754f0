import LiveRelay.Proofs.Queue.Serving
import Mathlib.Data.List.Induction

/-! # The account of a queue

Whatever is done to a queue, and by however many takers, frames enter it at one end and leave
it at the other. So what is buffered is the end of what has been accepted, and every frame
before it has left in the order of the pushes: it has been handed out to one taker, or it was
the oldest when a push found no room.
-/

namespace LiveRelay

/-! ## The account of a run -/

/-- The account of the steps that a queue for `capacity` frames has been through. -/
structure IsAccount (capacity : Nat) (steps : List QueueStep) (queue : SinkQueue) : Prop where
  /-- Frames are buffered in the order of the pushes and leave from the front. -/
  account : steps.flatMap QueueStep.accepted =
    (steps.flatMap QueueStep.departures).map Departure.frame ++ queue.frames ++
      steps.flatMap QueueStep.discarded
  /-- Nothing is discarded before the queue is closed. -/
  opened : queue.closed = false → steps.flatMap QueueStep.discarded = []
  counted : queue.dropped = (steps.flatMap QueueStep.dropped).length
  capacity : queue.capacity = max capacity 1
  settled : queue.IsSettled

theorem isAccount_nil (capacity : Nat) : IsAccount capacity [] (.ofCapacity capacity) where
  account := rfl
  opened := fun _ => rfl
  counted := rfl
  capacity := rfl
  settled := ⟨Nat.zero_le _, fun _ => rfl⟩

/-- One fair step keeps the account. -/
theorem IsAccount.step {capacity : Nat} {step : QueueStep} {steps : List QueueStep}
    (hsteps : IsAccount capacity steps step.before.queue) (hfair : step.IsFair) :
    IsAccount capacity (steps ++ [step]) step.after.queue := by
  have hopened : step.before.queue.closed = false → steps.flatMap QueueStep.discarded = [] :=
    hsteps.opened
  constructor
  case account =>
    simp only [List.flatMap_append, List.flatMap_singleton, List.map_append]
    rw [hsteps.account]
    rcases Bool.eq_false_or_eq_true step.before.queue.closed with hclosed | hopen
    · -- A closed queue holds nothing and stays, so the step adds nothing to either side.
      obtain ⟨haccepted, hafter⟩ := hfair.closed hclosed
      have hnil := hsteps.settled.closed hclosed
      have hnothing := hfair.account
      rw [haccepted, hafter, hnil] at hnothing
      obtain ⟨⟨hdepartures, -⟩, hdiscarded⟩ :
          (step.departures.map Departure.frame = [] ∧ True) ∧ step.discarded = [] := by
        simpa using hnothing
      rw [haccepted, hafter, hnil, hdepartures, hdiscarded]
      simp
    · rw [hopened hopen]
      simp only [List.append_nil, List.nil_append, List.append_assoc]
      rw [hfair.account]
      simp only [List.append_assoc]
  case opened =>
    intro hopen
    have hact : step.act ≠ .close := by
      intro hact
      rw [hfair.closes hact] at hopen
      cases hopen
    rw [hfair.stays hact] at hopen
    rw [List.flatMap_append, hopened hopen, List.flatMap_singleton,
      QueueStep.discarded_of_ne hact, List.append_nil]
  case counted =>
    rw [hfair.counted, hsteps.counted, List.flatMap_append, List.flatMap_singleton,
      List.length_append]
  case capacity => exact hfair.capacity.trans hsteps.capacity
  case settled => exact hfair.settled

namespace WaitingQueue

theorem afterAll_append_singleton (room : WaitingQueue) (acts : List QueueAct)
    (act : QueueAct) : room.afterAll (acts ++ [act]) = ((room.afterAll acts).act act).2 :=
  room.afterAll_append acts [act]

theorem history_append_singleton (room : WaitingQueue) (acts : List QueueAct)
    (act : QueueAct) :
    room.history (acts ++ [act]) = room.history acts ++ [(room.afterAll acts).stepOf act] :=
  room.history_append acts [act]

theorem isFair_stepOf {room : WaitingQueue} (h : room.queue.IsSettled) (act : QueueAct) :
    (room.stepOf act).IsFair :=
  QueueStep.isFair_of_serves (room.serves act) h

theorem isAccount_history (capacity : Nat) (acts : List QueueAct) :
    IsAccount capacity ((ofCapacity capacity).history acts)
      ((ofCapacity capacity).afterAll acts).queue := by
  induction acts using List.reverseRecOn with
  | nil => exact isAccount_nil capacity
  | append_singleton acts act ih =>
      rw [history_append_singleton, afterAll_append_singleton]
      exact ih.step (isFair_stepOf ih.settled act)

/-- Every step of a history starts where the operations before it have led. -/
theorem exists_of_mem_history {room : WaitingQueue} {acts : List QueueAct} {step : QueueStep}
    (h : step ∈ room.history acts) :
    ∃ before act, (before ++ [act]) <+: acts ∧ step = (room.afterAll before).stepOf act := by
  induction acts using List.reverseRecOn with
  | nil => cases h
  | append_singleton acts act ih =>
      rw [history_append_singleton] at h
      rcases List.mem_append.mp h with hold | hnew
      · obtain ⟨before, act', hprefix, rfl⟩ := ih hold
        exact ⟨before, act', hprefix.trans (List.prefix_append _ _), rfl⟩
      · rw [List.mem_singleton] at hnew
        exact ⟨acts, act, List.prefix_rfl, hnew⟩

end WaitingQueue

/-! ## After the queue has been closed -/

namespace WaitingQueue

variable {room : WaitingQueue}

/-- What a closed queue answers: it takes nothing, and tells every taker that it has ended. -/
def answerOnceClosed (room : WaitingQueue) : QueueAct → QueueAnswer
  | .push _ => .pushed false
  | .pop => .popped .finished
  | .wait _ => .popped .finished
  | .poll id => if (room.waiter? id).isSome then .popped .finished else .nobody
  | .cancel id => .cancelled (room.waiter? id).isSome
  | .close => .closed

/-- Once the queue is closed, nobody is left in line without a wake-up. -/
structure IsEnded (room : WaitingQueue) : Prop where
  closed : room.queue.closed = true
  frames : room.queue.frames = []
  woken : ∀ waiter ∈ room.waiters, waiter.wake.isSome = true

/-- With nobody left to wake, a wake-up is kept for the next that comes. -/
theorem notifyOne_of_woken (h : ∀ waiter ∈ room.waiters, waiter.wake.isSome = true) :
    room.notifyOne = { room with permit := true } := by
  unfold notifyOne
  rw [if_neg]
  simp only [List.any_eq_true, Option.isNone_iff_eq_none, not_exists, not_and]
  intro waiter hmem hnone
  have hsome := h waiter hmem
  rw [hnone] at hsome
  cases hsome

theorem notifyAll_of_woken (h : ∀ waiter ∈ room.waiters, waiter.wake.isSome = true) :
    room.notifyAll = room := by
  have hsame : room.notifyAll.waiters = room.waiters := by
    apply (List.map_congr_left _).trans (List.map_id _)
    intro waiter hmem
    rw [if_neg]
    · rfl
    · simpa [Option.isSome_iff_ne_none] using h waiter hmem
  exact WaitingQueue.mk.injEq .. ▸ ⟨rfl, hsame, rfl⟩

theorem woken_notifyAll (room : WaitingQueue) :
    ∀ waiter ∈ room.notifyAll.waiters, waiter.wake.isSome = true := by
  intro waiter hmem
  obtain ⟨before, -, rfl⟩ := List.mem_map.mp hmem
  split_ifs with hwake
  · rfl
  · exact Option.isSome_iff_ne_none.mpr (by simpa using hwake)

theorem isEnded_close (room : WaitingQueue) : room.close.IsEnded where
  closed := by rw [queue_close]; rfl
  frames := by rw [queue_close]; rfl
  woken := by
    unfold close
    rw [notifyOne_of_woken (woken_notifyAll _)]
    exact woken_notifyAll _

/-- Closing once more wakes nobody, and leaves the permit that is there. -/
theorem close_close (room : WaitingQueue) : room.close.close = room.close := by
  have hwoken : ∀ later : WaitingQueue, later.waiters = room.close.waiters →
      ∀ waiter ∈ later.waiters, waiter.wake.isSome = true := by
    intro later hlater
    rw [hlater]
    exact room.isEnded_close.woken
  have hpermit : room.close = { room.close with permit := true } := by
    unfold close
    rw [notifyOne_of_woken (woken_notifyAll _)]
  have hqueue : room.close.queue.close = room.close.queue := by
    rw [queue_close]
    rfl
  conv_lhs => rw [close]
  rw [hqueue, notifyAll_of_woken (hwoken _ rfl), notifyOne_of_woken (hwoken _ rfl)]
  exact hpermit.symm

theorem IsEnded.without (h : room.IsEnded) (id : Nat) : (room.without id).IsEnded where
  closed := h.closed
  frames := h.frames
  woken := fun waiter hmem => h.woken waiter (List.mem_filter.mp hmem).1

theorem IsEnded.notifyOne (h : room.IsEnded) : room.notifyOne.IsEnded where
  closed := by rw [queue_notifyOne, h.closed]
  frames := by rw [queue_notifyOne, h.frames]
  woken := by rw [notifyOne_of_woken h.woken]; exact h.woken

theorem IsEnded.pop (h : room.IsEnded) : room.pop = (.finished, room) := by
  unfold WaitingQueue.pop SinkQueue.pop
  rw [if_pos h.closed]

theorem IsEnded.wait (h : room.IsEnded) (id : Nat) : room.wait id = (.finished, room) := by
  rw [WaitingQueue.wait, h.pop]

/-- Whoever is still in line has been woken, and finds the end. -/
theorem IsEnded.poll (h : room.IsEnded) {id : Nat} {waiter : Waiter}
    (hwaiter : room.waiter? id = some waiter) :
    room.poll id = some (.finished, room.without id) := by
  obtain ⟨wake, hwake⟩ := Option.isSome_iff_exists.mp
    (h.woken waiter (List.mem_of_find?_eq_some hwaiter))
  rw [WaitingQueue.poll, hwaiter, Option.map_some, hwake]
  exact congrArg some ((h.without id).wait id)

/-- Giving up leaves an ended queue ended, and answers whether one was in line. -/
theorem IsEnded.cancel (h : room.IsEnded) (id : Nat) :
    (room.cancel id).1 = (room.waiter? id).isSome ∧ (room.cancel id).2.IsEnded := by
  unfold WaitingQueue.cancel
  split
  next hnone => exact ⟨by rw [hnone]; rfl, h⟩
  next hsome => exact ⟨by rw [hsome]; rfl, (h.without id).notifyOne⟩
  next hsome => exact ⟨by rw [hsome]; rfl, h.without id⟩

/-- One more operation on an ended queue. -/
theorem IsEnded.act (h : room.IsEnded) (act : QueueAct) :
    (room.act act).1 = room.answerOnceClosed act ∧ (room.act act).2.IsEnded := by
  cases act with
  | push frame =>
      rw [WaitingQueue.act, push_eq, if_pos h.closed]
      exact ⟨rfl, h⟩
  | pop =>
      rw [WaitingQueue.act, h.pop]
      exact ⟨rfl, h⟩
  | wait id =>
      rw [WaitingQueue.act, h.wait]
      exact ⟨rfl, h⟩
  | poll id =>
      rw [WaitingQueue.act, answerOnceClosed]
      cases hwaiter : room.waiter? id with
      | none =>
          rw [WaitingQueue.poll, hwaiter]
          exact ⟨rfl, h⟩
      | some waiter =>
          rw [h.poll hwaiter]
          exact ⟨rfl, h.without id⟩
  | cancel id =>
      obtain ⟨hanswer, hended⟩ := h.cancel id
      rw [WaitingQueue.act, answerOnceClosed, hanswer]
      exact ⟨rfl, hended⟩
  | close => exact ⟨rfl, room.isEnded_close⟩

theorem IsEnded.afterAll (h : room.IsEnded) (acts : List QueueAct) :
    (room.afterAll acts).IsEnded := by
  induction acts generalizing room with
  | nil => exact h
  | cons act acts ih => exact ih (h.act act).2

/-- The queue behind the line of an ended room no longer changes. -/
theorem IsEnded.queue_act (h : room.IsEnded) (act : QueueAct) :
    (room.act act).2.queue = room.queue := by
  have hsettled : room.queue.IsSettled :=
    ⟨by rw [h.frames]; exact Nat.zero_le _, fun _ => h.frames⟩
  exact ((isFair_stepOf hsettled act).closed h.closed).2

theorem IsEnded.queue_afterAll (h : room.IsEnded) (acts : List QueueAct) :
    (room.afterAll acts).queue = room.queue := by
  induction acts generalizing room with
  | nil => rfl
  | cons act acts ih => exact (ih (h.act act).2).trans (h.queue_act act)

/-- A push is told whether the queue is open. -/
theorem answer_of_pushes (room : WaitingQueue) (frame : Frame) :
    (room.act (.push frame)).1 = .pushed (!room.queue.closed) := by
  obtain ⟨hanswer, -⟩ := room.act_queueAct (.push frame)
  exact hanswer.trans (congrArg QueueAnswer.pushed (SinkQueue.fst_offer _ frame))

/-- Everybody who looks at a queue gets from it what there is. -/
theorem answer_of_looks {act : QueueAct}
    (h : act = .pop ∨ (∃ id, act = .wait id) ∨
      (∃ id waiter, act = .poll id ∧ room.waiter? id = some waiter ∧ waiter.wake.isSome = true)) :
    (room.act act).1 = .popped room.queue.pop.1 := by
  rcases h with rfl | ⟨id, rfl⟩ | ⟨id, waiter, rfl, hwaiter, hwoken⟩
  · exact congrArg QueueAnswer.popped room.pop_eq.1
  · exact congrArg QueueAnswer.popped (room.wait_eq id).1
  · obtain ⟨wake, hwake⟩ := Option.isSome_iff_exists.mp hwoken
    have hpoll : room.poll id = some ((room.without id).wait id) := by
      rw [WaitingQueue.poll, hwaiter, Option.map_some, hwake]
    rw [WaitingQueue.act, hpoll]
    exact congrArg QueueAnswer.popped ((room.without id).wait_eq id).1

/-! ## A queue gives up its oldest frames, and only these -/

/-- What there is to say about a queue for `capacity` frames that has been through the
operations `acts` and, once closed after them, goes through `later`. -/
structure DropsOldest (capacity : Nat) (acts later : List QueueAct) : Prop where
  /-- What has been accepted is what has left, what is buffered and what closing discarded,
  in this order. -/
  account : IsAccount capacity ((ofCapacity capacity).history acts)
    ((ofCapacity capacity).afterAll acts).queue
  /-- Those that have left were handed out, in the order in which the takers got them, -/
  handedOut : ((ofCapacity capacity).history acts).flatMap QueueStep.handedOut =
    ((((ofCapacity capacity).history acts).flatMap QueueStep.departures).filter
      (·.fate = .handedOut)).map Departure.frame
  /-- or dropped, and there are as many of these as the counter says. -/
  dropped : ((ofCapacity capacity).afterAll acts).queue.dropped =
    (((ofCapacity capacity).history acts).flatMap QueueStep.departures).countP
      (·.fate = .dropped)
  /-- An open queue takes every push, and a closed one none. -/
  takes : ∀ step ∈ (ofCapacity capacity).history acts, ∀ frame, step.act = .push frame →
    step.answer = .pushed (!step.before.queue.closed)
  /-- Whoever looks, at once or when woken, is handed the oldest frame if there is one. -/
  hands : ∀ step ∈ (ofCapacity capacity).history acts,
    step.act = .pop ∨ (∃ id, step.act = .wait id) ∨
      (∃ id waiter, step.act = .poll id ∧ step.before.waiter? id = some waiter ∧
        waiter.wake.isSome = true) →
    step.handedOut = step.before.queue.frames.take 1
  /-- A push that is accepted without room drops the oldest frame, and counts it. -/
  overflows : ∀ step ∈ (ofCapacity capacity).history acts, step.Overflows →
    ∃ oldest rest, step.before.queue.frames = oldest :: rest ∧
      step.departures = [⟨oldest, .dropped⟩] ∧
      step.after.queue.frames = rest ++ step.accepted ∧
      step.after.queue.dropped = step.before.queue.dropped + 1
  /-- Nothing else drops a frame or touches the counter. -/
  keeps : ∀ step ∈ (ofCapacity capacity).history acts, ¬ step.Overflows →
    (∀ departure ∈ step.departures, departure.fate = .handedOut) ∧
      step.after.queue.dropped = step.before.queue.dropped
  /-- Giving up leaves the queue alone, -/
  cancels : ∀ step ∈ (ofCapacity capacity).history acts, ∀ id, step.act = .cancel id →
    step.after.queue = step.before.queue
  /-- and so does looking at it without being handed a frame. -/
  looks : ∀ step ∈ (ofCapacity capacity).history acts,
    step.act = .pop ∨ (∃ id, step.act = .wait id) ∨ (∃ id, step.act = .poll id) →
    step.handedOut = [] → step.after.queue = step.before.queue
  /-- Closing empties the queue, and from then on it is told to everybody. -/
  ended : ((ofCapacity capacity).afterAll (acts ++ [.close])).queue =
    ((ofCapacity capacity).afterAll acts).queue.close
  later : ∀ step ∈ ((ofCapacity capacity).afterAll (acts ++ [.close])).history later,
    step.answer = step.before.answerOnceClosed step.act ∧
      step.after.queue = ((ofCapacity capacity).afterAll acts).queue.close

theorem ofCapacity_dropsOldest (capacity : Nat) (acts later : List QueueAct) :
    DropsOldest capacity acts later := by
  have hserves : ∀ step ∈ (ofCapacity capacity).history acts,
      step.before.queue.IsSettled ∧
        Serves step.before.queue step.act step.answer step.after.queue := by
    intro step hstep
    obtain ⟨before, act, -, rfl⟩ := exists_of_mem_history hstep
    exact ⟨(isAccount_history capacity before).settled, serves _ act⟩
  have hended : ((ofCapacity capacity).afterAll (acts ++ [.close])).queue =
      ((ofCapacity capacity).afterAll acts).queue.close := by
    rw [afterAll_append_singleton]
    exact queue_close _
  constructor
  case account => exact isAccount_history capacity acts
  case handedOut =>
    rw [List.filter_flatMap, List.map_flatMap]
    congr 1
    funext step
    exact step.handedOut_eq
  case dropped =>
    rw [(isAccount_history capacity acts).counted, List.countP_eq_length_filter,
      List.filter_flatMap, ← List.length_map Departure.frame, List.map_flatMap]
    congr 2
    funext step
    exact step.dropped_eq
  case takes =>
    intro step hstep frame hact
    obtain ⟨before, act, -, rfl⟩ := exists_of_mem_history hstep
    obtain rfl : act = .push frame := hact
    exact answer_of_pushes _ frame
  case hands =>
    intro step hstep hact
    have hsettled := (hserves step hstep).1
    obtain ⟨before, act, -, rfl⟩ := exists_of_mem_history hstep
    exact QueueStep.handedOut_of_pop (answer_of_looks hact) hsettled
  case overflows =>
    intro step hstep hover
    obtain ⟨hsettled, hserved⟩ := hserves step hstep
    exact QueueStep.overflows_of_serves hserved hsettled hover
  case keeps =>
    intro step hstep hfits
    obtain ⟨hsettled, hserved⟩ := hserves step hstep
    exact QueueStep.keeps_of_serves hserved hsettled hfits
  case cancels =>
    intro step hstep id hact
    obtain ⟨before, act, -, rfl⟩ := exists_of_mem_history hstep
    obtain rfl : act = .cancel id := hact
    exact queue_cancel _ id
  case looks =>
    intro step hstep hact hnone
    apply QueueStep.idle_of_serves (hserves step hstep).2 _ hnone
    · rcases hact with hact | ⟨id, hact⟩ | ⟨id, hact⟩ <;> simp [hact]
    · rcases hact with hact | ⟨id, hact⟩ | ⟨id, hact⟩ <;> simp [QueueStep.accepted, hact]
  case ended => exact hended
  case later =>
    intro step hstep
    obtain ⟨before, act, -, rfl⟩ := exists_of_mem_history hstep
    have hclosed : ((ofCapacity capacity).afterAll (acts ++ [.close])).IsEnded := by
      rw [afterAll_append_singleton]
      exact isEnded_close _
    refine ⟨((hclosed.afterAll before).act act).1, ?_⟩
    rw [← hended, ← hclosed.queue_afterAll before]
    exact (hclosed.afterAll before).queue_act act

end WaitingQueue

end LiveRelay
