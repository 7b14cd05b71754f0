import LiveRelay.FanOut
import Mathlib.Tactic.Common

/-! # What a fan-out does to the queues

Publishing comes down to pushing the accepted frames into every queue. A queue may give up
frames, and counts them, but it keeps the order of those that it has.
-/

namespace LiveRelay

namespace SinkQueue

/-- Pushes frames, one after the other. -/
def pushAll (queue : SinkQueue) (frames : List Frame) : SinkQueue := frames.foldl push queue

variable {queue : SinkQueue}

/-- An open queue takes every frame, and a closed one none. -/
@[simp] theorem fst_offer (queue : SinkQueue) (frame : Frame) :
    (queue.offer frame).1 = !queue.closed := by
  unfold offer
  split_ifs <;> simp_all

theorem push_eq (queue : SinkQueue) (frame : Frame) : queue.push frame =
    if queue.closed then queue
    else if queue.frames.length < queue.capacity then
      { queue with frames := queue.frames ++ [frame] }
    else { queue with frames := queue.frames.tail ++ [frame], dropped := queue.dropped + 1 } := by
  unfold push offer
  split_ifs <;> rfl

@[simp] theorem closed_push (queue : SinkQueue) (frame : Frame) :
    (queue.push frame).closed = queue.closed := by
  rw [push_eq]
  split_ifs <;> rfl

@[simp] theorem closed_pushAll (queue : SinkQueue) (frames : List Frame) :
    (queue.pushAll frames).closed = queue.closed := by
  induction frames generalizing queue with
  | nil => rfl
  | cons frame frames ih => exact (ih _).trans (queue.closed_push frame)

/-- A frame that an open queue takes is buffered, and if there is no room another is given
up for it. -/
theorem length_push (h : queue.closed = false) (frame : Frame) :
    (queue.push frame).dropped + (queue.push frame).frames.length =
      queue.dropped + queue.frames.length + 1 := by
  have hpos := queue.capacity_pos
  rw [push_eq, if_neg (by simp [h])]
  split_ifs with hroom
  · simp only [List.length_append, List.length_cons, List.length_nil]
    omega
  · simp only [List.length_append, List.length_tail, List.length_cons, List.length_nil]
    omega

theorem length_pushAll (h : queue.closed = false) (frames : List Frame) :
    (queue.pushAll frames).dropped + (queue.pushAll frames).frames.length =
      queue.dropped + queue.frames.length + frames.length := by
  induction frames generalizing queue with
  | nil => rfl
  | cons frame frames ih =>
      have hrest := ih ((queue.closed_push frame).trans h)
      rw [length_push h] at hrest
      rw [List.length_cons]
      exact hrest.trans (by omega)

/-- What a queue has given up it does not get back. -/
theorem dropped_le_push (queue : SinkQueue) (frame : Frame) :
    queue.dropped ≤ (queue.push frame).dropped := by
  rw [push_eq]
  split_ifs
  · exact Nat.le_refl _
  · exact Nat.le_refl _
  · exact Nat.le_succ _

theorem dropped_le_pushAll (queue : SinkQueue) (frames : List Frame) :
    queue.dropped ≤ (queue.pushAll frames).dropped := by
  induction frames generalizing queue with
  | nil => exact Nat.le_refl _
  | cons frame frames ih => exact Nat.le_trans (queue.dropped_le_push frame) (ih _)

/-- A queue keeps the order in which it was given its frames. -/
theorem push_sublist {before accepted : List Frame}
    (h : (before ++ queue.frames).Sublist accepted) (frame : Frame) :
    (before ++ (queue.push frame).frames).Sublist (accepted ++ [frame]) := by
  rw [push_eq]
  split_ifs
  · exact h.trans (List.sublist_append_left _ _)
  · rw [← List.append_assoc]
    exact h.append_right _
  · rw [← List.append_assoc]
    have htail : (before ++ queue.frames.tail).Sublist (before ++ queue.frames) :=
      queue.frames.tail_sublist.append_left before
    exact (htail.trans h).append_right _

theorem pushAll_sublist {before accepted : List Frame}
    (h : (before ++ queue.frames).Sublist accepted) (frames : List Frame) :
    (before ++ (queue.pushAll frames).frames).Sublist (accepted ++ frames) := by
  induction frames generalizing queue accepted with
  | nil => simpa [pushAll] using h
  | cons frame frames ih =>
      have hrest := ih (push_sublist h frame)
      rwa [List.append_assoc, List.singleton_append] at hrest

theorem mem_push {frame other : Frame} (h : other ∈ (queue.push frame).frames) :
    other ∈ queue.frames ∨ other = frame := by
  rw [push_eq] at h
  split_ifs at h
  · exact .inl h
  · simpa using h
  · rcases List.mem_append.mp h with htail | hlast
    · exact .inl (List.mem_of_mem_tail htail)
    · exact .inr (List.mem_singleton.mp hlast)

theorem mem_pushAll {frames : List Frame} {other : Frame}
    (h : other ∈ (queue.pushAll frames).frames) : other ∈ queue.frames ∨ other ∈ frames := by
  induction frames generalizing queue with
  | nil => exact .inl h
  | cons frame frames ih =>
      rcases ih h with hpushed | hrest
      · rcases mem_push hpushed with hold | rfl
        · exact .inl hold
        · exact .inr List.mem_cons_self
      · exact .inr (List.mem_cons_of_mem _ hrest)

/-- A frame that is taken was the oldest, and the others stay as they are. -/
theorem eq_of_pop {rest : SinkQueue} {frame : Frame} (h : queue.pop = (.frame frame, rest)) :
    queue.frames = frame :: rest.frames ∧ rest.dropped = queue.dropped ∧
      rest.closed = queue.closed := by
  unfold pop at h
  split_ifs at h
  · cases h
  · split at h
    next => cases h
    next first tail hframes =>
      cases h
      exact ⟨hframes, rfl, rfl⟩

end SinkQueue

namespace FanOut

variable {fanOut : FanOut}

/-- The frames that the fan-out takes when these are published: those that the filter lets
pass, and none once it is closed. -/
def accepts (fanOut : FanOut) (frames : List Frame) : List Frame :=
  if fanOut.closed then [] else frames.filter fanOut.filter.allows

theorem accepts_nil (fanOut : FanOut) : fanOut.accepts [] = [] := by
  simp [accepts]

theorem mem_of_mem_accepts {frames : List Frame} {frame : Frame}
    (h : frame ∈ fanOut.accepts frames) : frame ∈ frames := by
  unfold accepts at h
  split_ifs at h
  · cases h
  · exact (List.mem_filter.mp h).1

/-- A frame that passes is pushed onto every queue, and delivered to those that are open. -/
theorem publish_eq (fanOut : FanOut) (frame : Frame) : fanOut.publish frame =
    if fanOut.closed then (.closed, fanOut)
    else if fanOut.filter.allows frame then
      (.delivered (fanOut.sinks.countP (!·.closed)),
        { fanOut with sinks := fanOut.sinks.map (·.push frame) })
    else (.filtered, fanOut) := by
  have hcount : (fanOut.sinks.map (·.offer frame)).countP (·.1) =
      fanOut.sinks.countP (!·.closed) := by
    rw [List.countP_map]
    exact List.countP_congr fun queue _ => by simp
  have hsinks : (fanOut.sinks.map (·.offer frame)).map (·.2) = fanOut.sinks.map (·.push frame) :=
    List.map_map
  simp only [publish, hcount, hsinks]

/-- Publishes frames, one after the other. -/
def publishAll (fanOut : FanOut) (frames : List Frame) : FanOut :=
  frames.foldl (fun fanOut frame => (fanOut.publish frame).2) fanOut

/-- Publishing pushes what is accepted into every queue. -/
theorem publishAll_eq (fanOut : FanOut) (frames : List Frame) :
    fanOut.publishAll frames =
      { fanOut with sinks := fanOut.sinks.map (·.pushAll (fanOut.accepts frames)) } := by
  induction frames generalizing fanOut with
  | nil =>
      rw [accepts_nil]
      simp [publishAll, SinkQueue.pushAll]
  | cons frame frames ih =>
      have hstep : fanOut.publishAll (frame :: frames) =
          (fanOut.publish frame).2.publishAll frames := rfl
      rw [hstep, ih, publish_eq]
      split_ifs with hclosed hallowed
      · simp [accepts, hclosed]
      · simp [accepts, hclosed, hallowed, SinkQueue.pushAll]
      · simp [accepts, hclosed, hallowed]

/-- The queues are closed when the fan-out is. -/
def IsUniform (fanOut : FanOut) : Prop := ∀ queue ∈ fanOut.sinks, queue.closed = fanOut.closed

theorem isUniform_publishAll (h : fanOut.IsUniform) (frames : List Frame) :
    (fanOut.publishAll frames).IsUniform := by
  rw [publishAll_eq]
  intro queue hqueue
  obtain ⟨before, hbefore, rfl⟩ := List.mem_map.mp hqueue
  rw [SinkQueue.closed_pushAll]
  exact h before hbefore

theorem close_close (fanOut : FanOut) : fanOut.close.close = fanOut.close := by
  unfold close
  split_ifs <;> simp_all

theorem isUniform_close (h : fanOut.IsUniform) : fanOut.close.IsUniform := by
  unfold close
  split_ifs
  · exact h
  · intro queue hqueue
    obtain ⟨before, -, rfl⟩ := List.mem_map.mp hqueue
    rfl

/-- Taking a frame touches one queue only. -/
theorem eq_of_pop {rest : FanOut} {sink : Nat} {frame : Frame}
    (h : fanOut.pop sink = (.frame frame, rest)) :
    ∃ queue popped, fanOut.sinks[sink]? = some queue ∧ queue.pop = (.frame frame, popped) ∧
      rest = fanOut.setSink sink popped := by
  unfold pop at h
  split at h
  next => cases h
  next queue hqueue =>
    rw [Prod.mk.injEq] at h
    exact ⟨queue, queue.pop.2, hqueue, Prod.ext h.1 rfl, h.2.symm⟩

theorem isUniform_pop (h : fanOut.IsUniform) {rest : FanOut} {sink : Nat} {frame : Frame}
    (hpop : fanOut.pop sink = (.frame frame, rest)) : rest.IsUniform := by
  obtain ⟨queue, popped, hqueue, hpopped, rfl⟩ := eq_of_pop hpop
  intro other hother
  rcases List.mem_or_eq_of_mem_set hother with hother | rfl
  · exact h other hother
  · rw [(SinkQueue.eq_of_pop hpopped).2.2]
    exact h queue (List.mem_of_getElem? hqueue)

/-! ### What the queues have given up -/

theorem dropped_le_publishAll (fanOut : FanOut) (frames : List Frame) (sink : Nat) :
    fanOut.dropped sink ≤ (fanOut.publishAll frames).dropped sink := by
  rw [publishAll_eq, dropped, dropped, List.getElem?_map]
  cases fanOut.sinks[sink]? with
  | none => exact Nat.le_refl _
  | some queue => exact queue.dropped_le_pushAll _

theorem dropped_pop {rest : FanOut} {sink : Nat} {frame : Frame}
    (h : fanOut.pop sink = (.frame frame, rest)) (other : Nat) :
    rest.dropped other = fanOut.dropped other := by
  obtain ⟨queue, popped, hqueue, hpopped, rfl⟩ := eq_of_pop h
  have hlt : sink < fanOut.sinks.length := (List.getElem?_eq_some_iff.mp hqueue).1
  rw [dropped, dropped, setSink]
  by_cases hother : sink = other
  · subst hother
    rw [hqueue, List.getElem?_set_self hlt]
    exact (SinkQueue.eq_of_pop hpopped).2.1
  · rw [List.getElem?_set_ne hother]

theorem dropped_close (fanOut : FanOut) (sink : Nat) :
    fanOut.close.dropped sink = fanOut.dropped sink := by
  unfold close
  split_ifs
  · rfl
  · rw [dropped, dropped, List.getElem?_map]
    cases fanOut.sinks[sink]? <;> rfl

end FanOut

end LiveRelay
