import LiveRelay.Proofs.Queue.DropOldest
import Mathlib.Data.List.Nodup

/-! # No wake-up is lost

A frame may come while several takers wait, and be given up or taken by somebody else before
the one it has woken looks again. What holds all the same is a balance: as long as somebody
waits without having been woken, there are no more frames than takers on their way to them.

`Covers` is this balance up to some frames that are still owed a wake-up. A push adds such a
frame, a woken taker that leaves the line adds one, and `notifyOne` and looking at the queue
each settle one.
-/

namespace LiveRelay

/-- The taker in line that an operation is about. -/
def QueueAct.taker? : QueueAct → Option Nat
  | .wait id => some id
  | .poll id => some id
  | .cancel id => some id
  | _ => none

/-- The name under which a new taker may get in line. -/
def QueueAct.newcomer? : QueueAct → Option Nat
  | .wait id => some id
  | _ => none

/-- By the last answer it got, the taker is to go on waiting. -/
def IsLeftWaiting (steps : List QueueStep) (id : Nat) : Prop :=
  (steps.filter (·.act.taker? = some id)).getLast?.map QueueStep.answer = some (.popped .pending)

namespace SinkQueue

theorem length_frames_push_le (queue : SinkQueue) (frame : Frame) :
    (queue.push frame).frames.length ≤ queue.frames.length + 1 := by
  rw [push_eq]
  split_ifs
  · exact Nat.le_succ _
  · exact Nat.le_of_eq List.length_append
  · rw [List.length_append, List.length_singleton, List.length_tail]
    omega

/-- A taker waits for nothing but a frame. -/
theorem empty_of_pending {queue : SinkQueue} (h : queue.pop.1 = .pending) :
    queue.closed = false ∧ queue.frames = [] := by
  unfold pop at h
  split_ifs at h with hclosed
  split at h
  next hframes => exact ⟨by simpa using hclosed, hframes⟩
  next => cases h

theorem closed_of_finished {queue : SinkQueue} (h : queue.pop.1 = .finished) :
    queue.pop.2 = queue ∧ queue.closed = true := by
  unfold pop at h ⊢
  split_ifs at h ⊢ with hclosed
  · exact ⟨rfl, hclosed⟩
  · split at h <;> cases h

end SinkQueue

namespace WaitingQueue

variable {room : WaitingQueue}

/-- Those in line, by name. -/
def names (room : WaitingQueue) : List Nat := room.waiters.map Waiter.id

/-- How many takers have been woken and have neither looked again nor given up. -/
def woken (room : WaitingQueue) : Nat := room.waiters.countP (·.wake.isSome)

/-- Whether somebody is in line without having been woken. -/
def HasSleeper (room : WaitingQueue) : Prop := ∃ waiter ∈ room.waiters, waiter.wake = none

/-- Whoever gets in line does so under a name that nobody there has. -/
def NamesApart (room : WaitingQueue) : List QueueAct → Prop
  | [] => True
  | act :: acts => (∀ id ∈ act.newcomer?, id ∉ room.names) ∧ (room.act act).2.NamesApart acts

instance NamesApart.decidable (room : WaitingQueue) :
    (acts : List QueueAct) → Decidable (room.NamesApart acts)
  | [] => inferInstanceAs (Decidable True)
  | act :: acts =>
      have := NamesApart.decidable (room.act act).2 acts
      inferInstanceAs (Decidable (_ ∧ _))

theorem namesApart_append_singleton {acts : List QueueAct} {act : QueueAct} :
    room.NamesApart (acts ++ [act]) ↔
      room.NamesApart acts ∧ ∀ id ∈ act.newcomer?, id ∉ (room.afterAll acts).names := by
  induction acts generalizing room with
  | nil => simp [NamesApart, afterAll]
  | cons first acts ih =>
      rw [List.cons_append, NamesApart, ih, NamesApart, and_assoc]
      rfl

/-! ## Who is in line -/

theorem map_id_wakeFirst (waiters : List Waiter) :
    (wakeFirst waiters).map Waiter.id = waiters.map Waiter.id := by
  induction waiters with
  | nil => rfl
  | cons waiter waiters ih =>
      rw [wakeFirst]
      split_ifs
      · rfl
      · rw [List.map_cons, ih, List.map_cons]

@[simp] theorem names_notifyOne (room : WaitingQueue) : room.notifyOne.names = room.names := by
  unfold notifyOne
  split_ifs
  · exact map_id_wakeFirst room.waiters
  · rfl

@[simp] theorem names_notifyAll (room : WaitingQueue) : room.notifyAll.names = room.names := by
  rw [names, notifyAll, List.map_map, names]
  apply List.map_congr_left
  intro waiter _
  rw [Function.comp_apply]
  split_ifs <;> rfl

@[simp] theorem names_push (room : WaitingQueue) (frame : Frame) :
    (room.push frame).2.names = room.names := by
  rw [push_eq]
  split_ifs
  · rfl
  · exact names_notifyOne _

@[simp] theorem names_close (room : WaitingQueue) : room.close.names = room.names := by
  rw [close, names_notifyOne, names_notifyAll]
  rfl

theorem waiters_pop (room : WaitingQueue) : room.pop.2.waiters = room.waiters := by
  unfold pop
  split <;> rfl

@[simp] theorem names_pop (room : WaitingQueue) : room.pop.2.names = room.names := by
  rw [names, waiters_pop, names]

theorem mem_names_without {id other : Nat} :
    other ∈ (room.without id).names ↔ other ∈ room.names ∧ other ≠ id := by
  have hfilter : (room.without id).names = room.names.filter (· ≠ id) := by
    rw [names, without, names, List.filter_map]
    rfl
  rw [hfilter, List.mem_filter, decide_eq_true_eq]

theorem waiter?_eq_none_iff {id : Nat} : room.waiter? id = none ↔ id ∉ room.names := by
  simp [waiter?, names]

/-- One that finds nothing gets in line, behind everybody else. -/
theorem wait_cases (room : WaitingQueue) (id : Nat) :
    (room.queue.closed = false ∧ room.queue.frames = [] ∧ room.wait id =
      (.pending, { room with waiters := room.waiters ++ [{ id }], permit := false })) ∨
    ((room.wait id).1 ≠ .pending ∧ room.wait id = room.pop) := by
  unfold wait pop
  rcases hpop : room.queue.pop with ⟨popped, queue⟩
  cases popped with
  | pending =>
      obtain ⟨hopen, hempty⟩ := SinkQueue.empty_of_pending (congrArg Prod.fst hpop)
      exact .inl ⟨hopen, hempty, rfl⟩
  | finished => exact .inr ⟨nofun, rfl⟩
  | frame frame => exact .inr ⟨nofun, rfl⟩

theorem mem_names_wait {id : Nat} (h : id ∉ room.names) (other : Nat) :
    other ∈ (room.wait id).2.names ↔
      if id = other then (room.wait id).1 = .pending else other ∈ room.names := by
  rcases room.wait_cases id with ⟨-, -, hwait⟩ | ⟨hanswer, hwait⟩
  · have hnames : (room.wait id).2.names = room.names ++ [id] := by
      rw [hwait]
      exact List.map_append
    rw [hnames, List.mem_append, List.mem_singleton, hwait]
    split_ifs with hid
    · exact iff_of_true (.inr hid.symm) rfl
    · exact or_iff_left (Ne.symm hid)
  · rw [hwait, names_pop, ← hwait]
    split_ifs with hid
    · exact iff_of_false (hid ▸ h) hanswer
    · rfl

theorem not_mem_without (room : WaitingQueue) (id : Nat) : id ∉ (room.without id).names :=
  fun hmem => (mem_names_without.mp hmem).2 rfl

theorem mem_names_cancel {id other : Nat} :
    other ∈ (room.cancel id).2.names ↔ other ∈ room.names ∧ other ≠ id := by
  unfold cancel
  split
  next hnone =>
    have hnot := waiter?_eq_none_iff.mp hnone
    refine ⟨fun hmem => ⟨hmem, ?_⟩, And.left⟩
    rintro rfl
    exact hnot hmem
  next => rw [names_notifyOne, mem_names_without]
  next => exact mem_names_without

/-- One that has not been woken looks in vain. -/
theorem poll_of_sleeping {id : Nat} {waiter : Waiter} (h : room.waiter? id = some waiter)
    (hwake : waiter.wake = none) : room.poll id = some (.pending, room) := by
  rw [poll, h, Option.map_some, hwake]

/-- One that has been woken leaves the line, and looks as anybody else does. -/
theorem poll_of_woken {id : Nat} {waiter : Waiter} (h : room.waiter? id = some waiter)
    (hwake : waiter.wake ≠ none) : room.poll id = some ((room.without id).wait id) := by
  obtain ⟨wake, hsome⟩ := Option.ne_none_iff_exists'.mp hwake
  rw [poll, h, Option.map_some, hsome]

theorem mem_names_poll {id : Nat} {popped : Popped} {after : WaitingQueue}
    (h : room.poll id = some (popped, after)) (other : Nat) :
    other ∈ after.names ↔ if id = other then popped = .pending else other ∈ room.names := by
  obtain ⟨waiter, hwaiter, -⟩ := Option.map_eq_some_iff.mp h
  have hline : id ∈ room.names := by
    by_contra hnot
    rw [waiter?_eq_none_iff.mpr hnot] at hwaiter
    cases hwaiter
  by_cases hwake : waiter.wake = none
  · rw [poll_of_sleeping hwaiter hwake] at h
    cases h
    split_ifs with hid
    · simp [← hid, hline]
    · rfl
  · rw [poll_of_woken hwaiter hwake] at h
    have hmem := mem_names_wait (not_mem_without room id) other
    rw [Option.some.inj h, mem_names_without] at hmem
    rw [hmem]
    split_ifs with hid
    · rfl
    · simp [Ne.symm hid]

/-- Who is in line after an operation: the one that it is about if it was told to wait, and
everybody else who was there. -/
theorem mem_names_act {act : QueueAct} (hnew : ∀ id ∈ act.newcomer?, id ∉ room.names) (id : Nat) :
    id ∈ (room.act act).2.names ↔
      if act.taker? = some id then (room.act act).1 = .popped .pending else id ∈ room.names := by
  cases act with
  | push frame => simp [WaitingQueue.act, QueueAct.taker?]
  | pop => simp [WaitingQueue.act, QueueAct.taker?]
  | close => simp [WaitingQueue.act, QueueAct.taker?]
  | wait other =>
      simp only [WaitingQueue.act, QueueAct.taker?, Option.some.injEq, QueueAnswer.popped.injEq]
      exact mem_names_wait (hnew other rfl) id
  | cancel other =>
      simp only [WaitingQueue.act, QueueAct.taker?, mem_names_cancel, Option.some.injEq]
      split_ifs with hid
      · simp [hid]
      · simp [Ne.symm hid]
  | poll other =>
      simp only [WaitingQueue.act, QueueAct.taker?, Option.some.injEq]
      split
      next hpoll =>
        have hnot : other ∉ room.names := by
          rw [← waiter?_eq_none_iff]
          exact Option.map_eq_none_iff.mp hpoll
        split_ifs with hid
        · simp [← hid, hnot]
        · rfl
      next popped after hpoll =>
        simp only [QueueAnswer.popped.injEq]
        exact mem_names_poll hpoll id

/-- Those in line are those who were told to wait when they last looked, and have not given up
since. -/
theorem mem_names_iff {room : WaitingQueue} (hempty : room.names = []) {acts : List QueueAct}
    (h : room.NamesApart acts) (id : Nat) :
    id ∈ (room.afterAll acts).names ↔ IsLeftWaiting (room.history acts) id := by
  induction acts using List.reverseRecOn with
  | nil => simp [afterAll, history, hempty, IsLeftWaiting]
  | append_singleton acts act ih =>
      obtain ⟨hearlier, hnew⟩ := namesApart_append_singleton.mp h
      rw [afterAll_append_singleton, history_append_singleton, mem_names_act hnew, ih hearlier,
        IsLeftWaiting, IsLeftWaiting, List.filter_append]
      split_ifs with hid
      · have hlast : [(room.afterAll acts).stepOf act].filter (·.act.taker? = some id) =
            [(room.afterAll acts).stepOf act] :=
          List.filter_cons_of_pos (decide_eq_true hid)
        rw [hlast, List.getLast?_concat, Option.map_some, Option.some.injEq]
        rfl
      · have hlast : [(room.afterAll acts).stepOf act].filter (·.act.taker? = some id) = [] :=
          List.filter_cons_of_neg fun htaker => hid (of_decide_eq_true htaker)
        rw [hlast, List.append_nil]

/-! ## Who has been woken -/

theorem any_isNone_iff : room.waiters.any (·.wake.isNone) = true ↔ room.HasSleeper := by
  simp [HasSleeper]

/-- With somebody to wake, one more has been woken. -/
theorem countP_wakeFirst {waiters : List Waiter} (h : waiters.any (·.wake.isNone) = true) :
    (wakeFirst waiters).countP (·.wake.isSome) = waiters.countP (·.wake.isSome) + 1 := by
  induction waiters with
  | nil => cases h
  | cons waiter waiters ih =>
      rw [wakeFirst]
      split_ifs with hnone
      · rw [Option.isNone_iff_eq_none] at hnone
        simp [hnone]
      · have hrest : waiters.any (·.wake.isNone) = true := by simpa [hnone] using h
        rw [List.countP_cons, ih hrest, List.countP_cons]
        omega

theorem mem_wakeFirst {waiters : List Waiter} {waiter : Waiter} (h : waiter ∈ wakeFirst waiters) :
    waiter ∈ waiters ∨ waiter.wake = some .single := by
  induction waiters with
  | nil => cases h
  | cons first waiters ih =>
      rw [wakeFirst] at h
      split_ifs at h
      · rcases List.mem_cons.mp h with rfl | hrest
        · exact .inr rfl
        · exact .inl (List.mem_cons_of_mem _ hrest)
      · rcases List.mem_cons.mp h with rfl | hrest
        · exact .inl List.mem_cons_self
        · exact (ih hrest).imp_left (List.mem_cons_of_mem _)

/-- Under names of their own, one that leaves the line leaves everybody else where they are. -/
theorem exists_waiters_eq (hnames : room.names.Nodup) {id : Nat} {waiter : Waiter}
    (h : room.waiter? id = some waiter) :
    ∃ front back, room.waiters = front ++ waiter :: back ∧
      (room.without id).waiters = front ++ back := by
  obtain ⟨hid, front, back, hwaiters, hfront⟩ := List.find?_eq_some_iff_append.mp h
  obtain rfl : waiter.id = id := of_decide_eq_true hid
  rw [names, hwaiters, List.map_append, List.map_cons, List.nodup_middle,
    List.nodup_cons] at hnames
  have hback : ∀ other ∈ back, other.id ≠ waiter.id := by
    intro other hother heq
    exact hnames.1 (List.mem_append_right _ (heq ▸ List.mem_map_of_mem hother))
  refine ⟨front, back, hwaiters, ?_⟩
  rw [without, hwaiters, List.filter_append, List.filter_cons_of_neg (by simp),
    List.filter_eq_self.mpr fun other hother => by simpa using hfront other hother,
    List.filter_eq_self.mpr fun other hother => decide_eq_true (hback other hother)]

theorem woken_eq_woken_without (hnames : room.names.Nodup) {id : Nat} {waiter : Waiter}
    (h : room.waiter? id = some waiter) :
    room.woken = (room.without id).woken + if waiter.wake.isSome then 1 else 0 := by
  obtain ⟨front, back, hwaiters, hwithout⟩ := exists_waiters_eq hnames h
  rw [woken, woken, hwaiters, hwithout, List.countP_append, List.countP_append, List.countP_cons]
  omega

/-! ## The balance of frames and wake-ups -/

/-- As long as somebody waits without having been woken, the queue is open, and of the frames
in it all but the `owed` ones have a woken taker coming for them. -/
structure Covers (room : WaitingQueue) (owed : Nat) : Prop where
  names : room.names.Nodup
  everyone : ∀ waiter ∈ room.waiters, waiter.wake = some .everyone → room.queue.closed = true
  balance : room.HasSleeper →
    room.queue.closed = false ∧ room.queue.frames.length ≤ room.woken + owed

namespace Covers

variable {owed : Nat}

theorem ofCapacity (capacity : Nat) : (WaitingQueue.ofCapacity capacity).Covers 0 where
  names := List.nodup_nil
  everyone := nofun
  balance := nofun

/-- As long as the same takers are in line, it is only a matter of the queue. -/
theorem of_waiters_eq {later : WaitingQueue} {left : Nat} (h : room.Covers owed)
    (hwaiters : later.waiters = room.waiters)
    (hclosed : room.queue.closed = true → later.queue.closed = true)
    (hbalance : room.queue.closed = false → room.queue.frames.length ≤ room.woken + owed →
      later.queue.closed = false ∧ later.queue.frames.length ≤ room.woken + left) :
    later.Covers left := by
  constructor
  case names =>
    rw [WaitingQueue.names, hwaiters]
    exact h.names
  case everyone =>
    rw [hwaiters]
    exact fun waiter hmem hwake => hclosed (h.everyone waiter hmem hwake)
  case balance =>
    rw [HasSleeper, woken, hwaiters]
    intro hsleeper
    obtain ⟨hopen, hframes⟩ := h.balance hsleeper
    exact hbalance hopen hframes

/-- One wake-up settles one frame that is owed, or there is nobody left to be woken. -/
theorem notifyOne (h : room.Covers 1) : room.notifyOne.Covers 0 := by
  by_cases hany : room.waiters.any (·.wake.isNone) = true
  · have hwaiters : room.notifyOne.waiters = wakeFirst room.waiters := by
      rw [WaitingQueue.notifyOne, if_pos hany]
    constructor
    case names =>
      rw [names_notifyOne]
      exact h.names
    case everyone =>
      rw [queue_notifyOne, hwaiters]
      intro waiter hmem hwake
      rcases mem_wakeFirst hmem with hold | hsingle
      · exact h.everyone waiter hold hwake
      · rw [hsingle] at hwake
        cases hwake
    case balance =>
      intro _
      obtain ⟨hopen, hframes⟩ := h.balance (any_isNone_iff.mp hany)
      rw [queue_notifyOne, woken, hwaiters, countP_wakeFirst hany]
      exact ⟨hopen, hframes⟩
  · have hwaiters : room.notifyOne.waiters = room.waiters := by
      rw [WaitingQueue.notifyOne, if_neg hany]
    constructor
    case names =>
      rw [names_notifyOne]
      exact h.names
    case everyone =>
      rw [queue_notifyOne, hwaiters]
      exact h.everyone
    case balance =>
      rw [HasSleeper, hwaiters]
      exact fun hsleeper => absurd (any_isNone_iff.mpr hsleeper) hany

/-- One that leaves the line leaves a frame behind, if it was woken by one. -/
theorem without (h : room.Covers 0) {id : Nat} {waiter : Waiter}
    (hwaiter : room.waiter? id = some waiter) :
    (room.without id).Covers (if waiter.wake = some .single then 1 else 0) := by
  have hmem : ∀ other ∈ (room.without id).waiters, other ∈ room.waiters :=
    fun other hother => (List.mem_filter.mp hother).1
  constructor
  case names => exact (List.filter_sublist.map Waiter.id).nodup h.names
  case everyone => exact fun other hother => h.everyone other (hmem other hother)
  case balance =>
    rintro ⟨sleeper, hsleeper, hasleep⟩
    obtain ⟨hopen, hframes⟩ := h.balance ⟨sleeper, hmem sleeper hsleeper, hasleep⟩
    rw [woken_eq_woken_without h.names hwaiter] at hframes
    refine ⟨hopen, Nat.le_trans hframes ?_⟩
    match hwake : waiter.wake with
    | none => exact Nat.le_refl _
    | some .single => exact Nat.le_refl _
    | some .everyone =>
        have hclosed := h.everyone waiter (List.mem_of_find?_eq_some hwaiter) hwake
        rw [hopen] at hclosed
        cases hclosed

theorem push (h : room.Covers 0) (frame : Frame) : (room.push frame).2.Covers 0 := by
  rw [WaitingQueue.push_eq]
  split_ifs with hclosed
  · exact h
  · apply notifyOne
    refine h.of_waiters_eq rfl (fun hshut => absurd hshut hclosed) ?_
    intro hopen hframes
    have hpushed : (room.queue.push frame).frames.length ≤ room.woken + 1 :=
      Nat.le_trans (room.queue.length_frames_push_le frame) (Nat.succ_le_succ hframes)
    exact ⟨(room.queue.closed_push frame).trans hopen, hpushed⟩

/-- Whoever looks at the queue leaves it with a frame less, or empty, or closed. -/
theorem pop (h : room.Covers 1) : room.pop.2.Covers 0 := by
  unfold WaitingQueue.pop
  split
  next queue hpop =>
    obtain ⟨-, hempty⟩ := SinkQueue.empty_of_pending (congrArg Prod.fst hpop)
    refine h.of_waiters_eq rfl id ?_
    intro hopen _
    exact ⟨hopen, by simp [hempty]⟩
  next popped queue hnot hpop =>
    cases popped with
    | pending => exact absurd rfl hnot
    | finished =>
        obtain ⟨hqueue, hclosed⟩ := SinkQueue.closed_of_finished (congrArg Prod.fst hpop)
        have hshut : queue.closed = true := by
          rw [← hqueue, hpop] at hclosed
          exact hclosed
        refine h.of_waiters_eq rfl (fun _ => hshut) ?_
        intro hopen _
        rw [hclosed] at hopen
        cases hopen
    | frame frame =>
        obtain ⟨hframes, -, hclosed⟩ := SinkQueue.eq_of_pop hpop
        refine h.of_waiters_eq rfl (fun hshut => hclosed.trans hshut) ?_
        intro hopen hlength
        rw [hframes, List.length_cons] at hlength
        exact ⟨hclosed.trans hopen, Nat.le_of_succ_le_succ hlength⟩

/-- Whoever gets in line has found nothing, so there is nothing to be fetched. -/
theorem wait (h : room.Covers 1) {id : Nat} (hid : id ∉ room.names) :
    (room.wait id).2.Covers 0 := by
  rcases room.wait_cases id with ⟨hopen, hempty, hwait⟩ | ⟨-, hwait⟩
  · rw [hwait]
    constructor
    case names =>
      rw [WaitingQueue.names, List.map_append]
      apply List.Nodup.append h.names (List.nodup_singleton id)
      exact List.disjoint_singleton.mpr hid
    case everyone =>
      intro waiter hmem hwake
      rcases List.mem_append.mp hmem with hold | hnew
      · exact h.everyone waiter hold hwake
      · rw [List.mem_singleton.mp hnew] at hwake
        cases hwake
    case balance => exact fun _ => ⟨hopen, by simp [hempty]⟩
  · rw [hwait]
    exact h.pop

/-- Closing wakes everybody. -/
theorem close (h : room.Covers 0) : room.close.Covers 0 := by
  have hclosed : room.close.queue.closed = true := room.isEnded_close.closed
  constructor
  case names =>
    rw [names_close]
    exact h.names
  case everyone => exact fun _ _ _ => hclosed
  case balance =>
    rintro ⟨sleeper, hmem, hasleep⟩
    have hwoken := room.isEnded_close.woken sleeper hmem
    rw [hasleep] at hwoken
    cases hwoken

theorem mono {more : Nat} (h : room.Covers owed) (hle : owed ≤ more) : room.Covers more := by
  refine h.of_waiters_eq rfl id ?_
  intro hopen hframes
  exact ⟨hopen, Nat.le_trans hframes (Nat.add_le_add_left hle _)⟩

/-- One that looks again takes a frame with it, or finds none. -/
theorem poll (h : room.Covers 0) {id : Nat} {popped : Popped} {after : WaitingQueue}
    (hpoll : room.poll id = some (popped, after)) : after.Covers 0 := by
  obtain ⟨waiter, hwaiter, -⟩ := Option.map_eq_some_iff.mp hpoll
  by_cases hwake : waiter.wake = none
  · rw [poll_of_sleeping hwaiter hwake] at hpoll
    cases hpoll
    exact h
  · rw [poll_of_woken hwaiter hwake] at hpoll
    have hleft : (room.without id).Covers 1 := by
      apply (h.without hwaiter).mono
      split_ifs <;> decide
    have hwait := hleft.wait (not_mem_without room id)
    rw [Option.some.inj hpoll] at hwait
    exact hwait

/-- One that was woken by a frame and gives up has the next one woken. -/
theorem cancel (h : room.Covers 0) (id : Nat) : (room.cancel id).2.Covers 0 := by
  unfold WaitingQueue.cancel
  split
  next => exact h
  next hwaiter => exact (h.without hwaiter).notifyOne
  next waiter hother hwaiter =>
    have hsingle : waiter.wake ≠ some .single := fun hwake => hother waiter.id (by rw [← hwake])
    have hleft := h.without hwaiter
    rw [if_neg hsingle] at hleft
    exact hleft

/-- Whatever is done, nobody is forgotten in line. -/
theorem act (h : room.Covers 0) {act : QueueAct}
    (hnew : ∀ id ∈ act.newcomer?, id ∉ room.names) : (room.act act).2.Covers 0 := by
  cases act with
  | push frame => exact h.push frame
  | pop => exact (h.mono (Nat.zero_le 1)).pop
  | wait id => exact (h.mono (Nat.zero_le 1)).wait (hnew id rfl)
  | poll id =>
      rw [WaitingQueue.act]
      split
      next => exact h
      next popped after hpoll => exact h.poll hpoll
  | cancel id => exact h.cancel id
  | close => exact h.close

theorem afterAll (h : room.Covers 0) {acts : List QueueAct} (hnames : room.NamesApart acts) :
    (room.afterAll acts).Covers 0 := by
  induction acts generalizing room with
  | nil => exact h
  | cons act acts ih => exact ih (h.act hnames.1) hnames.2

end Covers

/-- No wake-up has been lost on the way to this room: these are the steps that led there. -/
structure LosesNoWakeUp (steps : List QueueStep) (room : WaitingQueue) : Prop where
  /-- Those in line are those who were told to wait when they last looked, and have not given
  up since. -/
  inLine : ∀ id, id ∈ room.names ↔ IsLeftWaiting steps id
  apart : room.names.Nodup
  /-- As long as one of them has not been woken, there is a woken one for every frame. -/
  balance : (∃ waiter ∈ room.waiters, waiter.wake = none) →
    room.queue.closed = false ∧
      room.queue.frames.length ≤ room.waiters.countP (·.wake.isSome)
  /-- A wake-up is used up by looking again, -/
  looks : ∀ id, ∀ waiter ∈ (room.act (.poll id)).2.waiters, waiter.id = id → waiter.wake = none
  /-- and by giving up. -/
  cancels : ∀ id, id ∉ (room.act (.cancel id)).2.names
  /-- Once all wake-ups have been used up, whoever is still left waiting waits for a frame that
  has yet to come. -/
  settles : (∀ waiter ∈ room.waiters, waiter.wake = none) → ∀ id, IsLeftWaiting steps id →
    room.queue.closed = false ∧ room.queue.frames = []

theorem wake_of_mem_wait {id : Nat} (h : id ∉ room.names) {waiter : Waiter}
    (hmem : waiter ∈ (room.wait id).2.waiters) (hid : waiter.id = id) : waiter.wake = none := by
  have hold : waiter ∉ room.waiters :=
    fun hin => h (List.mem_map.mpr ⟨waiter, hin, hid⟩)
  rcases room.wait_cases id with ⟨-, -, hwait⟩ | ⟨-, hwait⟩
  · rw [hwait] at hmem
    rw [List.mem_singleton.mp ((List.mem_append.mp hmem).resolve_left hold)]
  · rw [hwait, waiters_pop] at hmem
    exact absurd hmem hold

/-- Whoever is in line after it has looked again has no wake-up any more. -/
theorem wake_of_mem_poll (hnames : room.names.Nodup) {id : Nat} {waiter : Waiter}
    (hmem : waiter ∈ (room.act (.poll id)).2.waiters) (hid : waiter.id = id) :
    waiter.wake = none := by
  have hline : waiter ∈ room.waiters → id ∈ room.names :=
    fun hin => List.mem_map.mpr ⟨waiter, hin, hid⟩
  cases hwaiter : room.waiter? id with
  | none =>
      rw [WaitingQueue.act, poll, hwaiter] at hmem
      exact absurd (hline hmem) (waiter?_eq_none_iff.mp hwaiter)
  | some other =>
      by_cases hwake : other.wake = none
      · rw [WaitingQueue.act, poll_of_sleeping hwaiter hwake] at hmem
        obtain ⟨hother, -⟩ := List.find?_eq_some_iff_append.mp hwaiter
        rw [List.inj_on_of_nodup_map hnames hmem (List.mem_of_find?_eq_some hwaiter)
          (hid.trans (of_decide_eq_true hother).symm)]
        exact hwake
      · rw [WaitingQueue.act, poll_of_woken hwaiter hwake] at hmem
        exact wake_of_mem_wait (not_mem_without room id) hmem hid

/-- Whatever is done to a queue, by however many takers, none of them is left waiting for a
frame that is there, or for the end that has come. -/
theorem ofCapacity_losesNoWakeUp (capacity : Nat) {acts : List QueueAct}
    (hnames : (ofCapacity capacity).NamesApart acts) :
    LosesNoWakeUp ((ofCapacity capacity).history acts) ((ofCapacity capacity).afterAll acts) := by
  have hcovers : ((ofCapacity capacity).afterAll acts).Covers 0 :=
    (Covers.ofCapacity capacity).afterAll hnames
  have hempty : (ofCapacity capacity).names = [] := rfl
  have hline := mem_names_iff hempty hnames
  generalize (ofCapacity capacity).afterAll acts = room at hcovers hline ⊢
  constructor
  case inLine => exact hline
  case apart => exact hcovers.names
  case balance => exact hcovers.balance
  case looks => exact fun id waiter hmem hid => wake_of_mem_poll hcovers.names hmem hid
  case cancels => exact fun id hmem => (mem_names_cancel.mp hmem).2 rfl
  case settles =>
    intro hasleep id hleft
    obtain ⟨waiter, hmem, -⟩ := List.mem_map.mp ((hline id).mpr hleft)
    obtain ⟨hopen, hframes⟩ := hcovers.balance ⟨waiter, hmem, hasleep waiter hmem⟩
    have hnobody : room.woken = 0 :=
      List.countP_eq_zero.mpr fun other hother => by simp [hasleep other hother]
    rw [hnobody] at hframes
    exact ⟨hopen, List.length_eq_zero_iff.mp (Nat.le_zero.mp hframes)⟩

/-- Four takers wait for a queue with room for one frame. Two frames come and wake two of them,
though the second frame takes the place of the first. Then the first taker gives up. -/
def crowdedActs : List QueueAct :=
  [.wait 1, .wait 2, .wait 3, .wait 4, .push (.raw .empty), .push (.raw .empty), .cancel 1]

/-- The wake-up of the one that gave up went to the third, and the fourth still sleeps. -/
theorem ofCapacity_losesNoWakeUp_crowded :
    (ofCapacity 1).NamesApart crowdedActs ∧
      ((ofCapacity 1).afterAll crowdedActs).waiters =
        [⟨2, some .single⟩, ⟨3, some .single⟩, ⟨4, none⟩] ∧
      LosesNoWakeUp ((ofCapacity 1).history crowdedActs) ((ofCapacity 1).afterAll crowdedActs) :=
  ⟨by decide, by decide, ofCapacity_losesNoWakeUp 1 (by decide)⟩

end WaitingQueue

end LiveRelay
