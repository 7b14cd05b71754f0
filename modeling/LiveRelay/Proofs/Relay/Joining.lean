import LiveRelay.Proofs.Relay.Settled

/-! # When a group has joined its parts

Whatever is run and however often, a group that has begun waits for a task of each of its parts
(`IsStaffed`). Hence its connections have ended when it has joined all its tasks
(`IsStaffed.isSpent`). There is one exception: a connection that is run twice, for one of its two
tasks has nothing to do and is done while the other still drives the connection.
-/

namespace LiveRelay

namespace Connection

/-- A connection that has begun does not go back. -/
theorem act_begun {connection : Connection} (h : connection.life ≠ .unstarted) (fanOut : FanOut)
    (act : Act) : (connection.act fanOut act).connection.life ≠ .unstarted := by
  have hpassage := (connection.act_passes fanOut act).passage
  generalize connection.life = before at h hpassage
  generalize (connection.act fanOut act).marks = marks at hpassage
  generalize (connection.act fanOut act).connection.life = after at hpassage ⊢
  cases hpassage with
  | rests => exact h
  | begins => nofun
  | beginsInVain => nofun
  | closes => nofun
  | goesOn => nofun
  | ends => nofun

end Connection

namespace Relay

variable {relay : Relay} {move : Move} {change : Change}

/-- One task that was to run the connection is done, and another still drives it. -/
def IsRunTwice (relay : Relay) (id : ConnectionId) : Prop :=
  ∃ (first second : Nat) (one another : Task), relay.tasks[first]? = some one ∧
    one.component = .connection id ∧ one.phase.isDone = true ∧
    relay.tasks[second]? = some another ∧
    another.component = .connection id ∧ another.phase = .driving

/-- Every connection of the component has ended, but for those that are run twice. -/
def IsSpent (relay : Relay) (component : Component) : Prop :=
  ∀ id connection, component.Covers id → relay.connection? id = some connection →
    (∃ failure, connection.life = .ended failure) ∨ relay.IsRunTwice id

/-- What is known of the tasks of a relay, whichever of its parts are run. -/
structure IsStaffed (relay : Relay) : Prop where
  /-- Every part of a group that has begun has a task, which is done or still to be joined. -/
  children : ∀ {place : Nat} {task group child}, relay.tasks[place]? = some task →
    task.component = .group group → task.HasBegun → child.parent? = some group →
    (relay.componentPath? child).isSome →
    ∃ (other : Nat) (below : Task), relay.tasks[other]? = some below ∧ below.component = child ∧
      (below.phase.isDone = true ∨ other ∈ task.phase.children)
  begun : ∀ {place : Nat} {task id connection}, relay.tasks[place]? = some task →
    task.component = .connection id → task.phase.isDone = true →
    relay.connection? id = some connection → connection.life ≠ .unstarted

/-! ## What a deed does to the tasks -/

/-- A task that is done does not go on. -/
theorem Advances.not_done {seen : List Occurrence} {task : Task} {phase : TaskPhase}
    (h : relay.Advances seen task phase) : task.phase.isDone = false := by
  cases h with
  | settles hsettles => cases hsettles <;> rfl
  | begins => rfl
  | opens => rfl
  | ends => rfl

/-- The task of a component is there after a deed, and is done if it was done. -/
theorem Deed.task_stays (h : Deed relay move change) {place : Nat} {task : Task}
    (htask : relay.tasks[place]? = some task) :
    ∃ later, change.relay.tasks[place]? = some later ∧ later.component = task.component ∧
      (task.phase.isDone = true → later.phase.isDone = true) := by
  rcases h.task htask with hsame | ⟨phase, hadvances, hnext⟩
  · exact ⟨task, hsame, rfl, id⟩
  · refine ⟨_, hnext, rfl, fun hdone => ?_⟩
    rw [hadvances.not_done] at hdone
    cases hdone

/-- When a group begins, its parts get tasks that it has to join. -/
theorem Deed.task_of_part (h : Deed relay move change) {place : Nat} {group : Group}
    {token : Token} {later : Task}
    (htask : relay.tasks[place]? = some ⟨.group group, token, .ready⟩)
    (hlater : change.relay.tasks[place]? = some later) (hbegun : later.HasBegun)
    {child : Component} (hchild : child ∈ relay.childrenOf group) :
    ∃ (other : Nat) (below : Task), change.relay.tasks[other]? = some below ∧
      below.component = child ∧ other ∈ later.phase.children := by
  have hready : change.relay.tasks[place]? ≠ relay.tasks[place]? := by
    rw [hlater, htask]
    rintro ⟨⟩
    exact Task.phase_ne_ready hbegun rfl
  cases h with
  | notes => exact absurd rfl hready
  | cancels => exact absurd (by rw [tasks_cancel]) hready
  | closesFanOut => exact absurd (by rw [tasks_closeFanOut]) hready
  | signals => exact absurd (by rw [tasks_act]) hready
  | closes => exact absurd (by rw [tasks_act]) hready
  | runs =>
      refine absurd ?_ hready
      simp only [spawn]
      exact List.getElem?_append_left (List.getElem?_eq_some_iff.mp htask).1
  | @settles _ actor task phase hactor hsettles =>
      rcases getElem?_setPhase_cases phase hactor htask with hsame | ⟨rfl, hnext⟩
      · exact absurd (hsame.trans htask.symm) hready
      · obtain rfl := Option.some.inj (hlater.symm.trans hnext)
        cases hsettles with
        | refuses => exact hbegun.elim
        | strays hpath =>
            obtain ⟨hparent, hpart⟩ := mem_childrenOf.mp hchild
            have habove := parent_isPart hparent hpart
            rw [componentPath?, hpath] at habove
            cases habove
  | @begins _ actor id other _ hactor =>
      have hne : place ≠ actor := by
        rintro rfl
        cases hactor.symm.trans htask
      refine absurd ?_ hready
      rw [begun, getElem?_setPhase_of_ne _ hne, tasks_act]
  | @opens _ actor group' other _ hactor =>
      by_cases hplace : place = actor
      · subst hplace
        cases hactor.symm.trans htask
        rw [getElem?_opened_self hactor] at hlater
        obtain rfl := Option.some.inj hlater
        obtain ⟨index, hlt, hget⟩ := List.getElem_of_mem hchild
        have hbelow := getElem?_opened_new hactor index
        rw [List.getElem?_eq_getElem hlt, hget] at hbelow
        refine ⟨relay.tasks.length + index, _, hbelow, rfl, ?_⟩
        rw [TaskPhase.children, List.mem_range'_1]
        omega
      · refine absurd ?_ hready
        exact getElem?_opened_old hplace (List.getElem?_eq_some_iff.mp htask).1
  | @ends _ actor group' _ failures hactor =>
      have hne : place ≠ actor := by
        rintro rfl
        cases hactor.symm.trans htask
      exact absurd (getElem?_setPhase_of_ne _ hne _) hready

/-- A connection that has begun has begun after a deed, too. -/
theorem Deed.begun (h : Deed relay move change) (hpaths : relay.HasOwnPaths) {id : ConnectionId}
    {connection later : Connection} (hconnection : relay.connection? id = some connection)
    (hbegun : connection.life ≠ .unstarted)
    (hlater : change.relay.connection? id = some later) : later.life ≠ .unstarted := by
  obtain ⟨before, hbefore, hcases⟩ := h.connection_after hpaths hlater
  obtain rfl := Option.some.inj (hconnection.symm.trans hbefore)
  rcases hcases with ⟨fanOut, act, -, -, rfl⟩ | ⟨-, rfl⟩
  · exact connection.act_begun hbegun fanOut act
  · exact hbegun

theorem Deed.isStaffed (h : Deed relay move change) (hpaths : relay.HasOwnPaths)
    (hstaffed : relay.IsStaffed) : change.relay.IsStaffed where
  children := by
    intro place later group child hlater hgroup hbegun hparent hpart
    rw [h.treeStep.componentPath?] at hpart
    -- The task that a part had before is there, and done if it was.
    have hkept : ∀ children : List Nat, (∃ (other : Nat) (below : Task),
        relay.tasks[other]? = some below ∧ below.component = child ∧
          (below.phase.isDone = true ∨ other ∈ children)) →
        ∃ (other : Nat) (below : Task), change.relay.tasks[other]? = some below ∧
          below.component = child ∧ (below.phase.isDone = true ∨ other ∈ children) := by
      rintro children ⟨other, below, hbelow, hchild, hjoined⟩
      obtain ⟨below', hbelow', hsame, hdone⟩ := h.task_stays hbelow
      exact ⟨other, below', hbelow', hsame.trans hchild, hjoined.imp_left hdone⟩
    rcases h.task_before hlater (Task.phase_ne_ready hbegun) with
      hsame | ⟨task, htask, hadvances, hwas⟩
    · exact hkept _ (hstaffed.children hsame hgroup hbegun hparent hpart)
    · obtain ⟨component, token, phase⟩ := later
      obtain ⟨component', token', phase'⟩ := task
      obtain ⟨rfl, rfl, -⟩ := Task.mk.inj hwas
      obtain rfl : component = .group group := hgroup
      have hopens : phase' = .ready → ∃ (other : Nat) (below : Task),
          change.relay.tasks[other]? = some below ∧ below.component = child ∧
            (below.phase.isDone = true ∨ other ∈ phase.children) := by
        rintro rfl
        obtain ⟨other, below, hbelow, hchild, hwaits⟩ :=
          h.task_of_part htask hlater hbegun (mem_childrenOf.mpr ⟨hparent, hpart⟩)
        exact ⟨other, below, hbelow, hchild, .inr hwaits⟩
      have hjoins : ∀ children failures,
          (⟨.group group, token, .joining children failures⟩ : Task).HasBegun := by
        intro children failures
        cases group <;> trivial
      cases hadvances with
      | opens => exact hopens rfl
      | ends =>
          have hbelow := hstaffed.children htask rfl (hjoins _ _) hparent hpart
          exact hkept [] hbelow
      | settles hsettles =>
          cases hsettles with
          | refuses => exact hopens rfl
          | strays => exact hopens rfl
          | @joins _ _ children failures joined hdone =>
              obtain ⟨other, below, hbelow, hchild, hwaits⟩ :=
                hstaffed.children htask rfl (hjoins _ _) hparent hpart
              refine hkept _ ⟨other, below, hbelow, hchild, ?_⟩
              by_cases hother : other = joined
              · subst hother
                rw [phaseOf_eq hbelow] at hdone
                exact .inl hdone
              · exact hwaits.imp_right (List.mem_erase_of_ne hother).mpr
  begun := by
    intro place later id connection hlater hcomponent hdone hconnection
    obtain ⟨first, hfirst, -⟩ := h.treeStep.connection_before hconnection
    suffices hbefore : first.life ≠ .unstarted from
      h.begun hpaths hfirst hbefore hconnection
    rcases h.task_before hlater (TaskPhase.ne_ready_of_isDone hdone) with
      hsame | ⟨task, htask, hadvances, hwas⟩
    · exact hstaffed.begun hsame hcomponent hdone hfirst
    · obtain ⟨component, token, phase⟩ := later
      obtain ⟨component', token', phase'⟩ := task
      obtain ⟨rfl, rfl, -⟩ := Task.mk.inj hwas
      obtain rfl : component = .connection id := hcomponent
      cases hadvances with
      | begins => cases hdone
      | settles hsettles =>
          cases hsettles with
          | skips hlife => exact hlife first hfirst
          | arrives hother hlife =>
              obtain rfl := Option.some.inj (hfirst.symm.trans hother)
              rw [hlife]
              nofun

theorem stepAll_isStaffed (config : Config) (moves : List Move) :
    ((ofConfig config).stepAll moves).relay.IsStaffed := by
  have hbegin : (ofConfig config).IsStaffed := ⟨nofun, nofun⟩
  exact (ofConfig_isSound config).stepAll_induction (motive := fun relay _ => relay.IsStaffed)
    hbegin fun hsound hstaffed hdeed => hdeed.isStaffed hsound.hasOwnPaths hstaffed

/-! ## Groups that have joined all their parts -/

theorem isPart_connection {id : ConnectionId} {connection : Connection}
    (h : relay.connection? id = some connection) :
    (relay.componentPath? (.connection id)).isSome := by
  rw [componentPath?_connection h]
  rfl

namespace IsStaffed

variable {place : Nat} {task : Task}

/-- The task of a connection is not done before the connection has ended, or it is run twice. -/
theorem isSpent_connection (h : relay.IsStaffed) (hdriven : relay.IsDriven) {id : ConnectionId}
    (htask : relay.tasks[place]? = some task) (hcomponent : task.component = .connection id)
    (hdone : task.phase.isDone = true) : relay.IsSpent (.connection id) := by
  rintro _ connection rfl hconnection
  cases hlife : connection.life with
  | unstarted => exact absurd hlife (h.begun htask hcomponent hdone hconnection)
  | ended failure => exact .inl ⟨failure, rfl⟩
  | running run await =>
      obtain ⟨other, hother⟩ := hdriven id connection run await hconnection hlife
      exact .inr ⟨place, other, task, _, htask, hcomponent, hdone, hother, rfl, rfl⟩

/-- What is below a group that has joined all its parts is done. -/
theorem done_below (h : relay.IsStaffed) {group : Group} {child : Component}
    (htask : relay.tasks[place]? = some task) (hgroup : task.component = .group group)
    (hbegun : task.HasBegun) (hjoined : task.phase.children = [])
    (hparent : child.parent? = some group) (hpart : (relay.componentPath? child).isSome) :
    ∃ (other : Nat) (below : Task), relay.tasks[other]? = some below ∧ below.component = child ∧
      below.phase.isDone = true ∧ below.HasBegun ∧ below.phase.children = [] := by
  obtain ⟨other, below, hbelow, hchild, hdone⟩ :=
    h.children htask hgroup hbegun hparent hpart
  have hdone : below.phase.isDone = true := by
    rcases hdone with hdone | hwaits
    · exact hdone
    · rw [hjoined] at hwaits
      cases hwaits
  refine ⟨other, below, hbelow, hchild, hdone, Task.hasBegun_of_isDone ?_ hdone, ?_⟩
  · rw [hchild]
    rintro rfl
    cases hparent
  · cases hphase : below.phase with
    | done => rfl
    | _ => simp [hphase, TaskPhase.isDone] at hdone

theorem isSpent_endpoint (h : relay.IsStaffed) (hdriven : relay.IsDriven) {server endpoint : Nat}
    (htask : relay.tasks[place]? = some task)
    (hgroup : task.component = .group (.endpoint server endpoint)) (hbegun : task.HasBegun)
    (hjoined : task.phase.children = []) :
    relay.IsSpent (.group (.endpoint server endpoint)) := by
  rintro id connection ⟨rfl, rfl⟩ hconnection
  obtain ⟨other, below, hbelow, hchild, hdone, -, -⟩ :=
    h.done_below htask hgroup hbegun hjoined rfl (isPart_connection hconnection)
  exact h.isSpent_connection hdriven hbelow hchild hdone id connection rfl hconnection

theorem isSpent_server (h : relay.IsStaffed) (hdriven : relay.IsDriven) {server : Nat}
    (htask : relay.tasks[place]? = some task) (hgroup : task.component = .group (.server server))
    (hbegun : task.HasBegun) (hjoined : task.phase.children = []) :
    relay.IsSpent (.group (.server server)) := by
  rintro id connection rfl hconnection
  obtain ⟨other, below, hbelow, hchild, -, hbegun', hjoined'⟩ :=
    h.done_below htask hgroup hbegun hjoined rfl (parent_isPart rfl (isPart_connection hconnection))
  exact h.isSpent_endpoint hdriven hbelow hchild hbegun' hjoined' id connection ⟨rfl, rfl⟩
    hconnection

/-- When a group has joined all its parts, its connections have ended, or are run twice. -/
theorem isSpent (h : relay.IsStaffed) (hdriven : relay.IsDriven) {group : Group}
    (htask : relay.tasks[place]? = some task) (hgroup : task.component = .group group)
    (hbegun : task.HasBegun) (hjoined : task.phase.children = []) :
    relay.IsSpent (.group group) := by
  cases group with
  | endpoint server endpoint => exact h.isSpent_endpoint hdriven htask hgroup hbegun hjoined
  | server server => exact h.isSpent_server hdriven htask hgroup hbegun hjoined
  | relay =>
      intro id connection _ hconnection
      obtain ⟨other, below, hbelow, hchild, -, hbegun', hjoined'⟩ :=
        h.done_below htask hgroup hbegun hjoined rfl
          (parent_isPart rfl (parent_isPart rfl (isPart_connection hconnection)))
      exact h.isSpent_server hdriven hbelow hchild hbegun' hjoined' id connection rfl hconnection

end IsStaffed

end Relay

end LiveRelay
