import LiveRelay.Proofs.Endpoint.Conservation

/-! # Fan-outs that have been closed

A fan-out is closed together with its queues, and what they held is gone. From then on it
takes no frame and gives none, and no step of a connection changes it.
-/

namespace LiveRelay

theorem SinkQueue.close_close (queue : SinkQueue) : queue.close.close = queue.close := rfl

theorem SinkQueue.push_of_closed {queue : SinkQueue} (h : queue.closed = true) (frame : Frame) :
    queue.push frame = queue := by
  rw [push_eq, if_pos h]

theorem SinkQueue.pop_of_closed {queue : SinkQueue} (h : queue.closed = true) :
    queue.pop = (.finished, queue) := if_pos h

namespace FanOut

variable {fanOut : FanOut}

/-- Whether the fan-out and its queues are closed, and nothing is left in them. -/
structure IsShut (fanOut : FanOut) : Prop where
  closed : fanOut.closed = true
  queues : ∀ queue ∈ fanOut.sinks, queue.closed = true ∧ queue.frames = []

theorem close_of_closed (h : fanOut.closed = true) : fanOut.close = fanOut := if_pos h

theorem publish_of_closed (h : fanOut.closed = true) (frame : Frame) :
    fanOut.publish frame = (.closed, fanOut) := if_pos h

/-- Closing an open fan-out shuts it. -/
theorem isShut_close_of_open (h : fanOut.closed = false) : fanOut.close.IsShut := by
  rw [close, if_neg (by simp [h])]
  refine ⟨rfl, ?_⟩
  intro queue hqueue
  obtain ⟨before, -, rfl⟩ := List.mem_map.mp hqueue
  exact ⟨rfl, rfl⟩

/-- Taking a frame from a fan-out that is shut comes to nothing. -/
theorem IsShut.pop (h : fanOut.IsShut) (sink : Nat) :
    (∀ frame, (fanOut.pop sink).1 ≠ .frame frame) ∧ (fanOut.pop sink).2 = fanOut := by
  unfold FanOut.pop
  split
  next => exact ⟨by simp, rfl⟩
  next queue hqueue =>
    obtain ⟨hlt, hget⟩ := List.getElem?_eq_some_iff.mp hqueue
    have hclosed := (h.queues queue (List.mem_of_getElem? hqueue)).1
    have hsame : fanOut.setSink sink queue = fanOut := by
      rw [setSink, ← hget, List.set_getElem_self]
    rw [SinkQueue.pop_of_closed hclosed]
    exact ⟨by simp, hsame⟩

/-- Whether the fan-out is shut if it is closed at all. -/
def ShutsWhole (fanOut : FanOut) : Prop := fanOut.closed = true → fanOut.IsShut

theorem ShutsWhole.close (h : fanOut.ShutsWhole) : fanOut.close.IsShut := by
  rcases Bool.eq_false_or_eq_true fanOut.closed with hclosed | hopen
  · rw [close_of_closed hclosed]
    exact h hclosed
  · exact isShut_close_of_open hopen

/-- Nothing that is published gets into a fan-out that is closed. -/
theorem publishAll_of_closed (h : fanOut.closed = true) (frames : List Frame) :
    fanOut.publishAll frames = fanOut := by
  have hnothing : fanOut.accepts frames = [] := if_pos h
  have hsame : fanOut.sinks.map (·.pushAll []) = fanOut.sinks := List.map_id _
  rw [publishAll_eq, hnothing, hsame]

end FanOut

/-- No step of a connection changes a fan-out that is shut. -/
theorem Connection.act_of_isShut (connection : Connection) {fanOut : FanOut}
    (h : fanOut.IsShut) (act : Act) : (connection.act fanOut act).fanOut = fanOut := by
  rcases (connection.act_handled fanOut act).fanOut_eq with
    ⟨-, hfanOut⟩ | ⟨-, sink, frame, -, -, hpop⟩
  · rw [hfanOut, FanOut.publishAll_of_closed h.closed]
  · exact absurd (congrArg Prod.fst hpop) ((h.pop sink).1 frame)

/-- Whatever happens to an endpoint, its fan-out is closed as a whole. -/
theorem Endpoint.shutsWhole_act {endpoint : Endpoint} (h : endpoint.fanOut.ShutsWhole)
    (act : EndpointAct) : (endpoint.act act).fanOut.ShutsWhole := by
  cases act with
  | closeFanOut => exact fun _ => h.close
  | connection index act =>
      unfold Endpoint.act
      dsimp only
      split
      next => exact h
      next connection _ =>
        have hkeeps := (keeps_of_handled (connection.act_handled endpoint.fanOut act)).2
        intro hclosed
        have hshut : endpoint.fanOut.IsShut := h (hkeeps.symm.trans hclosed)
        rw [after, connection.act_of_isShut hshut]
        exact hshut

end LiveRelay
