import LiveRelay.Proofs.Endpoint.Shut
import LiveRelay.Proofs.Queue.Serving
import Mathlib.Order.Nat

/-! # Sinks that do not get in each other's way

A fan-out is published to and closed as a whole, and each of its sinks is used by itself.
What an operation does to a sink is settled by the filter, by whether the fan-out is closed and
by the sink itself. So nothing that happens to its siblings can be seen from a sink: not how
much room they have, nor whether they are served, overflow or are closed.
-/

namespace LiveRelay

/-- Nothing can be done any more to a queue that is closed and empty. -/
theorem SinkQueue.act_of_closed {queue : SinkQueue} (hclosed : queue.closed = true)
    (hframes : queue.frames = []) (act : SinkAct) : (queue.act act).2 = queue := by
  cases act with
  | push frame => exact push_of_closed hclosed frame
  | pop => exact congrArg Prod.snd (pop_of_closed hclosed)
  | close => exact close_of_closed hclosed hframes

/-! ## Operations on a fan-out -/

/-- What can be done to a fan-out. -/
inductive FanOutAct where
  | publish (frame : Frame)
  | sink (index : Nat) (act : SinkAct)
  | close
  deriving DecidableEq

/-- What an operation on a fan-out answers. -/
inductive FanOutAnswer where
  | published (delivery : Delivery)
  | served (answer : QueueAnswer)
  /-- There is no such sink. -/
  | absent
  | closed
  deriving DecidableEq

/-- What an operation does to the sink `index` of a fan-out with this filter that is closed or
not. -/
def FanOutAct.effect (filter : StreamFilter) (closed : Bool) (index : Nat) :
    FanOutAct → SinkQueue → SinkQueue
  | .publish frame => if !closed && filter.allows frame then (·.push frame) else id
  | .sink other act => if other = index then fun queue => (queue.act act).2 else id
  | .close => if closed then id else .close

/-- Whether an operation concerns the sink `index`: those on its siblings do not. -/
def FanOutAct.concerns (index : Nat) : FanOutAct → Bool
  | .sink other _ => other = index
  | _ => true

/-- An operation on a fan-out, with what it found, answered and left. -/
structure FanOutStep where
  before : FanOut
  act : FanOutAct
  answer : FanOutAnswer
  after : FanOut
  deriving DecidableEq

namespace FanOut

/-- Does one thing to a fan-out. -/
def act (fanOut : FanOut) : FanOutAct → FanOutAnswer × FanOut
  | .publish frame => (.published (fanOut.publish frame).1, (fanOut.publish frame).2)
  | .sink index act =>
      match fanOut.sinks[index]? with
      | none => (.absent, fanOut)
      | some queue => (.served (queue.act act).1, fanOut.setSink index (queue.act act).2)
  | .close => (.closed, fanOut.close)

/-- One operation as a step. -/
def stepOf (fanOut : FanOut) (act : FanOutAct) : FanOutStep :=
  ⟨fanOut, act, (fanOut.act act).1, (fanOut.act act).2⟩

/-- What a fan-out is after some operations. -/
def afterAll (fanOut : FanOut) (acts : List FanOutAct) : FanOut :=
  acts.foldl (fun fanOut act => (fanOut.act act).2) fanOut

/-- The steps that some operations are. -/
def history (fanOut : FanOut) : List FanOutAct → List FanOutStep
  | [] => []
  | act :: acts => fanOut.stepOf act :: (fanOut.act act).2.history acts

variable {fanOut : FanOut}

theorem afterAll_cons (fanOut : FanOut) (act : FanOutAct) (acts : List FanOutAct) :
    fanOut.afterAll (act :: acts) = (fanOut.act act).2.afterAll acts := List.foldl_cons ..

/-- Taking a frame of a sink that is there is one of the operations on it. -/
theorem act_pop {index : Nat} {queue : SinkQueue} (h : fanOut.sinks[index]? = some queue) :
    fanOut.act (.sink index .pop) =
      (.served (.popped (fanOut.pop index).1), (fanOut.pop index).2) := by
  simp only [act, pop, h, SinkQueue.act]

/-! ## What an operation does -/

theorem publish_of_refused (hopen : fanOut.closed = false) {frame : Frame}
    (hrefused : fanOut.filter.allows frame = false) :
    fanOut.publish frame = (.filtered, fanOut) := by
  rw [publish_eq, if_neg (by simp [hopen]), if_neg (by simp [hrefused])]

theorem publish_of_allowed (hopen : fanOut.closed = false) {frame : Frame}
    (hallowed : fanOut.filter.allows frame = true) :
    fanOut.publish frame = (.delivered (fanOut.sinks.countP (!·.closed)),
      { fanOut with sinks := fanOut.sinks.map (·.push frame) }) := by
  rw [publish_eq, if_neg (by simp [hopen]), if_pos hallowed]

theorem filter_act (fanOut : FanOut) (act : FanOutAct) :
    (fanOut.act act).2.filter = fanOut.filter := by
  cases act with
  | publish frame =>
      rw [FanOut.act, publish_eq]
      split_ifs <;> rfl
  | sink index act =>
      rw [FanOut.act]
      split <;> rfl
  | close =>
      rw [FanOut.act, close]
      split_ifs <;> rfl

/-- Only closing a fan-out closes it, and nothing opens it again. -/
theorem closed_act (fanOut : FanOut) (act : FanOutAct) :
    (fanOut.act act).2.closed = (fanOut.closed || act = .close) := by
  cases act with
  | publish frame =>
      rw [FanOut.act, publish_eq]
      split_ifs <;> simp
  | sink index act =>
      rw [FanOut.act]
      split <;> simp [setSink]
  | close =>
      rw [FanOut.act, close]
      split_ifs with hclosed <;> simp [hclosed]

/-- An operation has its effect on each of the sinks. -/
theorem getElem?_act (fanOut : FanOut) (act : FanOutAct) (index : Nat) :
    (fanOut.act act).2.sinks[index]? =
      fanOut.sinks[index]?.map (act.effect fanOut.filter fanOut.closed index) := by
  cases act with
  | publish frame =>
      rw [FanOut.act, publish_eq]
      split_ifs with hclosed hallowed
      · simp [FanOutAct.effect, hclosed]
      · simp [FanOutAct.effect, hclosed, hallowed]
      · simp [FanOutAct.effect, hclosed, hallowed]
  | sink other act =>
      rw [FanOut.act]
      split
      next hnone =>
        by_cases heq : other = index
        · subst heq
          rw [hnone]
          rfl
        · simp [FanOutAct.effect, heq]
      next queue hqueue =>
        rw [setSink, List.getElem?_set]
        by_cases heq : other = index
        · subst heq
          obtain ⟨hlt, rfl⟩ := List.getElem?_eq_some_iff.mp hqueue
          simp [FanOutAct.effect, hlt]
        · simp [FanOutAct.effect, heq]
  | close =>
      rw [FanOut.act, close]
      split_ifs with hclosed
      · simp [FanOutAct.effect, hclosed]
      · simp [FanOutAct.effect, hclosed]

theorem length_act (fanOut : FanOut) (act : FanOutAct) :
    (fanOut.act act).2.sinks.length = fanOut.sinks.length := by
  apply eq_of_forall_ge_iff
  intro index
  rw [← List.getElem?_eq_none_iff, getElem?_act, Option.map_eq_none_iff,
    List.getElem?_eq_none_iff]

/-- Nothing can be done any more to a fan-out that is shut. -/
theorem IsShut.act (h : fanOut.IsShut) (act : FanOutAct) : (fanOut.act act).2 = fanOut := by
  cases act with
  | publish frame => exact congrArg Prod.snd (publish_of_closed h.closed frame)
  | sink index act =>
      rw [FanOut.act]
      split
      next => rfl
      next queue hqueue =>
        obtain ⟨hclosed, hframes⟩ := h.queues queue (List.mem_of_getElem? hqueue)
        obtain ⟨hlt, rfl⟩ := List.getElem?_eq_some_iff.mp hqueue
        dsimp only
        rw [SinkQueue.act_of_closed hclosed hframes, setSink, List.set_getElem_self]
  | close => exact close_of_closed h.closed

theorem ShutsWhole.act (h : fanOut.ShutsWhole) (act : FanOutAct) :
    (fanOut.act act).2.ShutsWhole := by
  intro hclosed
  rw [closed_act, Bool.or_eq_true, decide_eq_true_eq] at hclosed
  rcases hclosed with hbefore | rfl
  · rw [(h hbefore).act]
    exact h hbefore
  · exact h.close

/-! ## What operations do, one after the other -/

theorem afterAll_induction {motive : FanOut → Prop} (h : motive fanOut)
    (hstep : ∀ (later : FanOut) (act : FanOutAct), motive later → motive (later.act act).2)
    (acts : List FanOutAct) : motive (fanOut.afterAll acts) := by
  induction acts generalizing fanOut with
  | nil => exact h
  | cons act acts ih => exact ih (hstep fanOut act h)

theorem filter_afterAll (fanOut : FanOut) (acts : List FanOutAct) :
    (fanOut.afterAll acts).filter = fanOut.filter := by
  apply afterAll_induction (motive := fun later => later.filter = fanOut.filter) rfl
  intro later act hlater
  rw [filter_act, hlater]

theorem length_afterAll (fanOut : FanOut) (acts : List FanOutAct) :
    (fanOut.afterAll acts).sinks.length = fanOut.sinks.length := by
  apply afterAll_induction (motive := fun later => later.sinks.length = fanOut.sinks.length) rfl
  intro later act hlater
  rw [length_act, hlater]

theorem ShutsWhole.afterAll (h : fanOut.ShutsWhole) (acts : List FanOutAct) :
    (fanOut.afterAll acts).ShutsWhole :=
  afterAll_induction h (fun _ act hlater => hlater.act act) acts

theorem closed_afterAll_iff {acts : List FanOutAct} :
    (fanOut.afterAll acts).closed = true ↔ fanOut.closed = true ∨ .close ∈ acts := by
  induction acts generalizing fanOut with
  | nil => simp [afterAll]
  | cons act acts ih =>
      rw [afterAll_cons, ih, closed_act, Bool.or_eq_true, decide_eq_true_eq, List.mem_cons,
        or_assoc, @eq_comm _ act]

/-! ## Publishing is pushing -/

/-- A frame pushed onto sinks, one after the other. -/
def pushes (frame : Frame) (order : List Nat) : List FanOutAct :=
  order.map fun index => .sink index (.push frame)

variable {frame : Frame} {order : List Nat}

theorem getElem?_afterAll_pushes (hnodup : order.Nodup) (index : Nat) :
    (fanOut.afterAll (pushes frame order)).sinks[index]? =
      fanOut.sinks[index]?.map (if index ∈ order then (·.push frame) else id) := by
  induction order generalizing fanOut with
  | nil => simp [pushes, afterAll]
  | cons head tail ih =>
      obtain ⟨hhead, htail⟩ := List.nodup_cons.mp hnodup
      rw [pushes, List.map_cons, afterAll_cons, ← pushes, ih htail, getElem?_act, Option.map_map,
        FanOutAct.effect]
      by_cases heq : head = index
      · subst heq
        rw [if_neg hhead, if_pos rfl, if_pos List.mem_cons_self]
        rfl
      · rw [if_neg heq, Function.comp_id]
        simp only [List.mem_cons, Ne.symm heq, false_or]

/-- Publishing a frame that passes is pushing it onto each sink once. -/
theorem publish_eq_pushes (hopen : fanOut.closed = false)
    (hallowed : fanOut.filter.allows frame = true)
    (horder : order.Perm (List.range fanOut.sinks.length)) :
    (fanOut.publish frame).2 = fanOut.afterAll (pushes frame order) := by
  have hnodup : order.Nodup := horder.nodup_iff.mpr List.nodup_range
  have hclosed : (fanOut.afterAll (pushes frame order)).closed = false := by
    rw [Bool.eq_false_iff, Ne, closed_afterAll_iff]
    simp [hopen, pushes]
  rw [publish_of_allowed hopen hallowed, FanOut.mk.injEq, filter_afterAll, hclosed]
  refine ⟨rfl, List.ext_getElem? fun index => ?_, hopen⟩
  rw [getElem?_afterAll_pushes hnodup, List.getElem?_map]
  by_cases hlt : index < fanOut.sinks.length
  · rw [if_pos (horder.mem_iff.mpr (List.mem_range.mpr hlt))]
  · rw [List.getElem?_eq_none (Nat.le_of_not_lt hlt)]
    rfl

/-- A sink answers by itself. -/
theorem answer_congr {other : FanOut} {index : Nat}
    (h : fanOut.sinks[index]? = other.sinks[index]?) (act : SinkAct) :
    (fanOut.act (.sink index act)).1 = (other.act (.sink index act)).1 := by
  unfold FanOut.act
  dsimp only
  rw [h]
  split <;> rfl

/-- Pushed onto one sink after the other, a frame gets from each the answer that it would get
from it alone. -/
theorem answers_pushes (hnodup : order.Nodup) :
    (fanOut.history (pushes frame order)).map (·.answer) =
      order.map fun index => (fanOut.act (.sink index (.push frame))).1 := by
  induction order generalizing fanOut with
  | nil => rfl
  | cons head tail ih =>
      obtain ⟨hhead, htail⟩ := List.nodup_cons.mp hnodup
      rw [pushes, List.map_cons, history, ← pushes, List.map_cons, ih htail, List.map_cons]
      congr 1
      apply List.map_congr_left
      intro index hindex
      have hother : head ≠ index := fun heq => hhead (heq ▸ hindex)
      apply answer_congr
      rw [getElem?_act, FanOutAct.effect, if_neg hother, Option.map_id, id]

theorem answer_push_iff {index : Nat} :
    (fanOut.act (.sink index (.push frame))).1 = .served (.pushed true) ↔
      fanOut.sinks[index]?.any (!·.closed) = true := by
  rw [FanOut.act]
  split
  next hnone => simp [hnone]
  next queue hqueue => simp [hqueue, SinkQueue.act]

theorem countP_range (sinks : List SinkQueue) (p : SinkQueue → Bool) :
    (List.range sinks.length).countP (fun index => sinks[index]?.any p) = sinks.countP p := by
  induction sinks with
  | nil => rfl
  | cons queue sinks ih =>
      rw [List.length_cons, List.range_succ_eq_map, List.countP_cons, List.countP_map,
        List.countP_cons, ← ih]
      rfl

/-- As many sinks take the frame as are open. -/
theorem count_pushes (horder : order.Perm (List.range fanOut.sinks.length)) :
    (fanOut.history (pushes frame order)).countP (·.answer = .served (.pushed true)) =
      fanOut.sinks.countP (!·.closed) :=
  have hnodup : order.Nodup := horder.nodup_iff.mpr List.nodup_range
  calc (fanOut.history (pushes frame order)).countP (·.answer = .served (.pushed true))
      = ((fanOut.history (pushes frame order)).map (·.answer)).countP
          (· = .served (.pushed true)) := by rw [List.countP_map]; rfl
    _ = order.countP fun index => fanOut.sinks[index]?.any (!·.closed) := by
        rw [answers_pushes hnodup, List.countP_map]
        exact List.countP_congr fun index _ => by simp [answer_push_iff]
    _ = (List.range fanOut.sinks.length).countP fun index =>
          fanOut.sinks[index]?.any (!·.closed) := horder.countP_eq _
    _ = fanOut.sinks.countP (!·.closed) := countP_range _ _

/-- What publishing and taking come to, now that the fan-out is as it is. -/
structure TreatsAlike (fanOut : FanOut) : Prop where
  /-- A frame that passes is pushed once onto each sink, in whatever order, and delivered to
  those that take it. -/
  delivers : ∀ frame, fanOut.closed = false → fanOut.filter.allows frame = true →
    ∀ order, order.Perm (List.range fanOut.sinks.length) →
      fanOut.publish frame = (.delivered (fanOut.sinks.countP (!·.closed)),
        fanOut.afterAll (pushes frame order)) ∧
      (fanOut.history (pushes frame order)).countP (·.answer = .served (.pushed true)) =
        fanOut.sinks.countP (!·.closed)
  /-- One that does not pass is pushed onto none, -/
  filters : ∀ frame, fanOut.closed = false → fanOut.filter.allows frame = false →
    fanOut.publish frame = (.filtered, fanOut)
  /-- and neither is one that comes too late. -/
  refuses : ∀ frame, fanOut.closed = true → fanOut.publish frame = (.closed, fanOut)
  /-- There are no open sinks then. -/
  shut : fanOut.closed = true → fanOut.IsShut
  /-- To take a frame of a sink is to take it from the queue of this sink alone. -/
  takes : ∀ index queue, fanOut.sinks[index]? = some queue →
    fanOut.act (.sink index .pop) = (.served (.popped (fanOut.pop index).1), (fanOut.pop index).2)

theorem ShutsWhole.treatsAlike (h : fanOut.ShutsWhole) : fanOut.TreatsAlike where
  delivers := by
    intro frame hopen hallowed order horder
    refine ⟨Prod.ext ?_ (publish_eq_pushes hopen hallowed horder), count_pushes horder⟩
    rw [publish_of_allowed hopen hallowed]
  filters := fun _ hopen hrefused => publish_of_refused hopen hrefused
  refuses := fun frame hclosed => publish_of_closed hclosed frame
  shut := h
  takes := fun _ _ hqueue => act_pop hqueue

end FanOut

/-! ## What can be seen from one sink -/

/-- What can be seen of an operation from one sink. -/
structure Glimpse where
  act : FanOutAct
  answer : FanOutAnswer
  before : Option SinkQueue
  after : Option SinkQueue
  deriving DecidableEq

/-- An answer as far as it is about one sink: of those that a frame has been delivered to, only
this one is counted. -/
def FanOutAnswer.about (queue : Option SinkQueue) : FanOutAnswer → FanOutAnswer
  | .published (.delivered _) => .published (.delivered (queue.toList.countP (!·.closed)))
  | answer => answer

/-- A step as it is seen from the sink `index`. -/
def FanOutStep.glimpse (index : Nat) (step : FanOutStep) : Glimpse where
  act := step.act
  answer := step.answer.about step.before.sinks[index]?
  before := step.before.sinks[index]?
  after := step.after.sinks[index]?

/-- What can be seen of some steps from the sink `index`. -/
def glimpses (index : Nat) (steps : List FanOutStep) : List Glimpse :=
  (steps.filter (·.act.concerns index)).map (·.glimpse index)

theorem glimpses_cons_of_concerns {index : Nat} {step : FanOutStep}
    (h : step.act.concerns index = true) (steps : List FanOutStep) :
    glimpses index (step :: steps) = step.glimpse index :: glimpses index steps := by
  rw [glimpses, List.filter_cons, if_pos h, List.map_cons, ← glimpses]

theorem glimpses_cons_of_not_concerns {index : Nat} {step : FanOutStep}
    (h : ¬ step.act.concerns index = true) (steps : List FanOutStep) :
    glimpses index (step :: steps) = glimpses index steps := by
  rw [glimpses, List.filter_cons, if_neg h, ← glimpses]

namespace FanOut

/-- Two fan-outs that are the same to the sink `index`. -/
structure Alike (index : Nat) (fanOut other : FanOut) : Prop where
  filter : fanOut.filter = other.filter
  closed : fanOut.closed = other.closed
  queue : fanOut.sinks[index]? = other.sinks[index]?

namespace Alike

variable {index : Nat} {fanOut other : FanOut}

theorem refl (index : Nat) (fanOut : FanOut) : Alike index fanOut fanOut := ⟨rfl, rfl, rfl⟩

/-- What is done to a sibling is nothing to a sink. -/
theorem of_not_concerns (h : Alike index fanOut other) {act : FanOutAct}
    (hact : ¬ act.concerns index = true) : Alike index (fanOut.act act).2 other := by
  cases act with
  | sink sibling act =>
      have hsibling : sibling ≠ index := by simpa [FanOutAct.concerns] using hact
      constructor
      case filter => exact (filter_act _ _).trans h.filter
      case closed =>
        rw [closed_act, h.closed]
        simp
      case queue =>
        rw [getElem?_act, FanOutAct.effect, if_neg hsibling, Option.map_id, id, h.queue]
  | publish frame => exact absurd rfl hact
  | close => exact absurd rfl hact

/-- Whatever is done to both of them, they stay alike. -/
theorem act (h : Alike index fanOut other) (act : FanOutAct) :
    Alike index (fanOut.act act).2 (other.act act).2 where
  filter := by rw [filter_act, filter_act, h.filter]
  closed := by rw [closed_act, closed_act, h.closed]
  queue := by rw [getElem?_act, getElem?_act, h.filter, h.closed, h.queue]

theorem about_answer (h : Alike index fanOut other) {act : FanOutAct}
    (hact : act.concerns index = true) (queue : Option SinkQueue) :
    (fanOut.act act).1.about queue = (other.act act).1.about queue := by
  cases act with
  | publish frame =>
      rw [FanOut.act, FanOut.act, publish_eq, publish_eq, h.closed, h.filter]
      split_ifs <;> rfl
  | sink sibling act =>
      obtain rfl : sibling = index := by simpa [FanOutAct.concerns] using hact
      rw [answer_congr h.queue]
  | close => rfl

theorem glimpse_stepOf (h : Alike index fanOut other) {act : FanOutAct}
    (hact : act.concerns index = true) :
    (fanOut.stepOf act).glimpse index = (other.stepOf act).glimpse index := by
  simp only [FanOutStep.glimpse, stepOf, h.about_answer hact, h.queue, (h.act act).queue]

/-- Without the operations on its siblings, a sink sees the same and is left the same. -/
theorem run (h : Alike index fanOut other) (acts : List FanOutAct) :
    glimpses index (fanOut.history acts) =
        glimpses index (other.history (acts.filter (·.concerns index))) ∧
      Alike index (fanOut.afterAll acts) (other.afterAll (acts.filter (·.concerns index))) := by
  induction acts generalizing fanOut other with
  | nil => exact ⟨rfl, h⟩
  | cons act acts ih =>
      by_cases hact : act.concerns index = true
      · obtain ⟨hglimpses, hafter⟩ := ih (h.act act)
        rw [List.filter_cons_of_pos hact, history, history, glimpses_cons_of_concerns hact,
          glimpses_cons_of_concerns hact, h.glimpse_stepOf hact, hglimpses]
        exact ⟨rfl, hafter⟩
      · obtain ⟨hglimpses, hafter⟩ := ih (h.of_not_concerns hact)
        rw [List.filter_cons_of_neg hact, history, glimpses_cons_of_not_concerns hact]
        exact ⟨hglimpses, hafter⟩

end Alike

/-- A fan-out over these queues that has not been used. -/
def ofSinks (filter : StreamFilter) (sinks : List SinkQueue) : FanOut := { filter, sinks }

/-- What some operations come to on a fan-out that has not been used before. -/
structure KeepsApart (filter : StreamFilter) (sinks : List SinkQueue)
    (acts : List FanOutAct) : Prop where
  filter_eq : ((ofSinks filter sinks).afterAll acts).filter = filter
  length_eq : ((ofSinks filter sinks).afterAll acts).sinks.length = sinks.length
  /-- It is open until it is closed. -/
  closed_iff : ((ofSinks filter sinks).afterAll acts).closed = true ↔ .close ∈ acts
  /-- As long as it is open, whatever passes goes to every sink. -/
  treatsAlike : ((ofSinks filter sinks).afterAll acts).TreatsAlike
  /-- With other siblings, of whatever capacity, and with other operations on them, a sink sees
  the same and is left the same. -/
  apart : ∀ index others otherActs, sinks[index]? = others[index]? →
    acts.filter (·.concerns index) = otherActs.filter (·.concerns index) →
    glimpses index ((ofSinks filter sinks).history acts) =
        glimpses index ((ofSinks filter others).history otherActs) ∧
      ((ofSinks filter sinks).afterAll acts).sinks[index]? =
        ((ofSinks filter others).afterAll otherActs).sinks[index]?

/-- Every sink gets what is published, and none has anything to do with its siblings. -/
theorem ofSinks_keepsApart (filter : StreamFilter) (sinks : List SinkQueue)
    (acts : List FanOutAct) : KeepsApart filter sinks acts := by
  have hshuts : (ofSinks filter sinks).ShutsWhole := nofun
  constructor
  case filter_eq => exact filter_afterAll _ _
  case length_eq => exact length_afterAll _ _
  case closed_iff =>
    rw [closed_afterAll_iff]
    simp [ofSinks]
  case treatsAlike => exact (hshuts.afterAll acts).treatsAlike
  case apart =>
    intro index others otherActs hsink hacts
    -- Both runs are compared with the one in which nothing happens to any sibling.
    have hothers : Alike index (ofSinks filter others) (ofSinks filter sinks) :=
      ⟨rfl, rfl, hsink.symm⟩
    obtain ⟨hglimpses, hafter⟩ := (Alike.refl index (ofSinks filter sinks)).run acts
    obtain ⟨hotherGlimpses, hotherAfter⟩ := hothers.run otherActs
    rw [hacts] at hglimpses hafter
    exact ⟨hglimpses.trans hotherGlimpses.symm, hafter.queue.trans hotherAfter.queue.symm⟩

/-- The first sink is not served and gives up frames, the second has room for all of them. -/
example : ((ofSinks {} [.ofCapacity 1, .ofCapacity 4]).afterAll
    (List.replicate 3 (.publish (.raw .empty)))).sinks.map (fun queue =>
      (queue.frames.length, queue.dropped)) = [(1, 2), (3, 0)] := by decide

end FanOut

end LiveRelay
