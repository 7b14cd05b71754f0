import LiveRelay.Proofs.Relay.Order

/-! # What is over when a task is done

A connection whose task is done has ended, and the fan-out of an endpoint whose task is done
is closed. When the run of the relay is done its token has been cancelled, and every part of
the tree has a task that is done.
-/

namespace LiveRelay

theorem TaskPhase.ne_ready_of_isDone {phase : TaskPhase} (h : phase.isDone = true) :
    phase ≠ .ready := by
  rintro rfl
  cases h

theorem Task.hasBegun_of_isDone {task : Task} (hcomponent : task.component ≠ .group .relay)
    (hdone : task.phase.isDone = true) : task.HasBegun := by
  obtain ⟨component, token, phase⟩ := task
  cases phase with
  | done failure =>
      cases component with
      | connection id => simp [Task.HasBegun]
      | group group =>
          cases group with
          | relay => exact absurd rfl hcomponent
          | server => simp [Task.HasBegun]
          | endpoint => simp [Task.HasBegun]
  | ready => cases hdone
  | joining => cases hdone
  | driving => cases hdone

namespace Relay

variable {relay : Relay} {move : Move} {change : Change}

/-- A connection that has ended stays so. -/
theorem Deed.ended (h : Deed relay move change) (hpaths : relay.HasOwnPaths) {id : ConnectionId}
    {connection : Connection} {failure : Option ConnectionError}
    (hconnection : relay.connection? id = some connection)
    (hlife : connection.life = .ended failure) :
    ∃ later, change.relay.connection? id = some later ∧ later.life = .ended failure := by
  rcases h.connection_cases hpaths hconnection with ⟨fanOut, act, -, hacts⟩ | hrests
  · exact ⟨_, hacts.connection_eq, Connection.act_of_ended hlife fanOut act⟩
  · exact ⟨connection, hrests.connection_eq, hlife⟩

/-- What has been stopped for a group stays stopped. -/
theorem Deed.hasStopped (h : Deed relay move change) {group : Group}
    (hstopped : relay.HasStopped group) : change.relay.HasStopped group := by
  cases group with
  | relay => exact h.isCancelled hstopped
  | server => trivial
  | endpoint server endpoint =>
      intro later hlater
      obtain ⟨value, hvalue, rfl | ⟨act, rfl⟩⟩ := h.treeStep.endpoint hlater
      · exact hstopped _ hvalue
      · by_contra hopen
        have hclosed : (value.act act).fanOut.closed = false := by simpa using hopen
        have hbefore := ((EndpointStep.mk value act).fanOut_after.2 hclosed).1
        rw [hstopped value hvalue] at hbefore
        cases hbefore

/-- What is over when a task is done. -/
structure IsSettled (relay : Relay) : Prop where
  ended : ∀ {place : Nat} {task id connection}, relay.tasks[place]? = some task →
    task.component = .connection id → task.phase.isDone = true →
    relay.connection? id = some connection → ∃ failure, connection.life = .ended failure
  stopped : ∀ {place : Nat} {task group}, relay.tasks[place]? = some task →
    task.component = .group group → task.phase.isDone = true → task.HasBegun →
    relay.HasStopped group

theorem Deed.isSettled (h : Deed relay move change) (hsound : relay.IsSound)
    (hdriven : relay.IsDriven) (horder : relay.InOrder) (hsettled : relay.IsSettled) :
    change.relay.IsSettled where
  ended := by
    intro place later id connection hlater hcomponent hdone hconnection
    obtain ⟨first, hfirst, -⟩ := h.treeStep.connection_before hconnection
    have hended : (∃ failure, first.life = .ended failure) →
        ∃ failure, connection.life = .ended failure := by
      rintro ⟨failure, hlife⟩
      obtain ⟨last, hlast, hended⟩ := h.ended hsound.hasOwnPaths hfirst hlife
      rw [hconnection] at hlast
      obtain rfl := Option.some.inj hlast
      exact ⟨failure, hended⟩
    apply hended
    rcases h.task_before hlater (TaskPhase.ne_ready_of_isDone hdone) with
      hsame | ⟨task, htask, hadvances, hwas⟩
    · exact hsettled.ended hsame hcomponent hdone hfirst
    · obtain ⟨component, token, phase⟩ := later
      obtain ⟨component', token', phase'⟩ := task
      obtain ⟨rfl, rfl, -⟩ := Task.mk.inj hwas
      obtain rfl : component = .connection id := hcomponent
      cases hadvances with
      | begins => cases hdone
      | settles hsettles =>
          cases hsettles with
          | arrives hother hlife =>
              rw [hfirst] at hother
              obtain rfl := Option.some.inj hother
              exact ⟨_, hlife⟩
          | skips hlife =>
              -- It is not driven by another task, and so it does not run.
              cases hlast : first.life with
              | unstarted => exact absurd hlast (hlife first hfirst)
              | ended failure => exact ⟨failure, rfl⟩
              | running run await =>
                  obtain ⟨other, hother⟩ := hdriven id first run await hfirst hlast
                  obtain rfl := horder.unique hother htask nofun nofun rfl
                  rw [htask] at hother
                  cases hother
  stopped := by
    intro place later group hlater hcomponent hdone hbegun
    refine h.hasStopped ?_
    rcases h.task_before hlater (TaskPhase.ne_ready_of_isDone hdone) with
      hsame | ⟨task, htask, hadvances, hwas⟩
    · exact hsettled.stopped hsame hcomponent hdone hbegun
    · obtain ⟨component, token, phase⟩ := later
      obtain ⟨component', token', phase'⟩ := task
      obtain ⟨rfl, rfl, -⟩ := Task.mk.inj hwas
      obtain rfl : component = .group group := hcomponent
      cases hadvances with
      | opens => cases hdone
      | ends hstopped => exact hstopped
      | settles hsettles =>
          have hgoes := hsettles.goesOn (horder.isPart htask)
          cases hsettles with
          | refuses => cases hbegun
          | strays => cases (hgoes.hasBegun group rfl).mp hbegun
          | joins => cases hdone

/-! ## When the run of the relay is done -/

/-- The run of the relay is done. -/
def HasReturned (relay : Relay) : Prop :=
  ∃ (place : Nat) (token : Token), relay.tasks[place]? = some ⟨.group .relay, token, .done none⟩

/-- The component has been run to the end. -/
def IsOver (relay : Relay) (component : Component) : Prop :=
  ∃ (place : Nat) (task : Task), relay.tasks[place]? = some task ∧
    task.component = component ∧ task.phase.isDone = true ∧ task.HasBegun

/-- What is below a group is over when the group is. -/
theorem InOrder.isOver_below (h : relay.InOrder) {group : Group} {child : Component}
    (hparent : child.parent? = some group) (hpart : (relay.componentPath? child).isSome)
    (hover : relay.IsOver (.group group)) : relay.IsOver child := by
  obtain ⟨place, task, htask, hgroup, hdone, hbegun⟩ := hover
  obtain ⟨other, below, hbelow, hchild, hjoined⟩ :=
    h.children htask hgroup hbegun hparent hpart
  have hbelowDone : below.phase.isDone = true := by
    rcases hjoined with hjoined | hwaits
    · exact hjoined
    · cases hphase : task.phase with
      | joining => simp [hphase, TaskPhase.isDone] at hdone
      | _ => simp [hphase, TaskPhase.children] at hwaits
  refine ⟨other, below, hbelow, hchild, hbelowDone, Task.hasBegun_of_isDone ?_ hbelowDone⟩
  rw [hchild]
  rintro rfl
  cases hparent

/-- The run of the relay is not done before every part of it has been run to the end. -/
theorem InOrder.isOver (h : relay.InOrder) (hreturned : relay.HasReturned)
    {component : Component} (hpart : (relay.componentPath? component).isSome) :
    relay.IsOver component := by
  obtain ⟨place, token, htask⟩ := hreturned
  have hrelay : relay.IsOver (.group .relay) := ⟨place, _, htask, rfl, rfl, trivial⟩
  have hserver : ∀ server, (relay.componentPath? (.group (.server server))).isSome →
      relay.IsOver (.group (.server server)) :=
    fun server hserver => h.isOver_below rfl hserver hrelay
  have hendpoint : ∀ server endpoint,
      (relay.componentPath? (.group (.endpoint server endpoint))).isSome →
      relay.IsOver (.group (.endpoint server endpoint)) :=
    fun server endpoint hendpoint => h.isOver_below rfl hendpoint
      (hserver server (parent_isPart rfl hendpoint))
  cases component with
  | connection id =>
      exact h.isOver_below rfl hpart (hendpoint _ _ (parent_isPart rfl hpart))
  | group group =>
      cases group with
      | relay => exact hrelay
      | server server => exact hserver server hpart
      | endpoint server endpoint => exact hendpoint server endpoint hpart

/-- No other task of a component that is over is still to be done, but for those that find that
the relay has been run. -/
theorem InOrder.done_of_isOver (h : relay.InOrder) {component : Component}
    (hover : relay.IsOver component) {place : Nat} {task : Task}
    (htask : relay.tasks[place]? = some task) (hcomponent : task.component = component)
    (hown : task.IsOwn) : task.phase.isDone = true := by
  obtain ⟨other, done, hdone, hsame, hisDone, hbegun⟩ := hover
  obtain rfl := h.unique htask hdone hown (fun _ => hbegun) (hcomponent.trans hsame.symm)
  rw [htask] at hdone
  obtain rfl := Option.some.inj hdone
  exact hisDone

end Relay

end LiveRelay
