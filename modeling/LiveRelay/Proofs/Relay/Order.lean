import LiveRelay.Proofs.Relay.Tasks

/-! # The tasks of a relay that is run as a whole

As long as nothing but the relay itself is run from outside, its tasks form a tree like that
of its parts: every part has at most one task, which is there once the group above has begun,
and a group that is done has joined the tasks of all its parts (`InOrder`). The relay can be
run many times, but only one of the tasks runs it.
-/

namespace LiveRelay

/-- The tasks that a group still has to join. -/
def TaskPhase.children : TaskPhase → List Nat
  | joining children _ => children
  | _ => []

namespace Task

/-- Whether a task has begun to run its component. One that finds the relay running never
does. -/
def HasBegun (task : Task) : Prop :=
  match task.component, task.phase with
  | _, .ready => False
  | .group .relay, .done (some _) => False
  | _, _ => True

theorem phase_ne_ready {task : Task} (h : task.HasBegun) : task.phase ≠ .ready := by
  obtain ⟨component, token, phase⟩ := task
  rintro ⟨⟩
  cases component <;> exact h

/-- Whether no other task may run the component. -/
def IsOwn (task : Task) : Prop := task.component = .group .relay → task.HasBegun

/-- The phases that a task of the component can have. -/
def Fits (task : Task) : Prop :=
  match task.component, task.phase with
  | .group _, .driving => False
  | .connection _, .joining _ _ => False
  | .group .relay, .done (some failure) => failure = .relay .alreadyRunning
  | _, _ => True

end Task

/-- Whether nothing but the relay is run in the move. -/
def Move.RunsRelayOnly : Move → Prop
  | run component _ => component = .group .relay
  | _ => True

namespace Relay

/-- The tasks of a relay that is only run as a whole. -/
structure InOrder (relay : Relay) : Prop where
  isPart : ∀ {place : Nat} {task}, relay.tasks[place]? = some task →
    (relay.componentPath? task.component).isSome
  fits : ∀ {place : Nat} {task}, relay.tasks[place]? = some task → task.Fits
  unique : ∀ {first second : Nat} {one another}, relay.tasks[first]? = some one →
    relay.tasks[second]? = some another → one.IsOwn → another.IsOwn →
    one.component = another.component → first = second
  hasRun : relay.hasRun = true ↔ ∃ (place : Nat) (task : Task), relay.tasks[place]? = some task ∧
    task.component = .group .relay ∧ task.HasBegun
  /-- What is above a part that has a task has begun. -/
  parent : ∀ {place : Nat} {task group}, relay.tasks[place]? = some task →
    task.component.parent? = some group →
    ∃ (other : Nat) (above : Task), relay.tasks[other]? = some above ∧
      above.component = .group group ∧ above.HasBegun
  /-- What is below a group that has begun has tasks, and those that are not done are still to
  be joined. -/
  children : ∀ {place : Nat} {task group child}, relay.tasks[place]? = some task →
    task.component = .group group → task.HasBegun → child.parent? = some group →
    (relay.componentPath? child).isSome →
    ∃ (other : Nat) (below : Task), relay.tasks[other]? = some below ∧ below.component = child ∧
      (below.phase.isDone = true ∨ other ∈ task.phase.children)

variable {relay : Relay} {place : Nat} {task : Task}

theorem InOrder.congr {before after : Relay} (h : before.InOrder)
    (htasks : after.tasks = before.tasks) (hrun : after.hasRun = before.hasRun)
    (hparts : ∀ component, after.componentPath? component = before.componentPath? component) :
    after.InOrder := by
  cases h
  constructor <;> simpa only [htasks, hrun, hparts]

/-! ## Phases that change -/

/-- A task goes on to a phase in which its component has not begun or ended anew. -/
structure GoesOn (relay : Relay) (task : Task) (phase : TaskPhase) : Prop where
  fits : { task with phase := phase }.Fits
  not_done : task.phase.isDone = false
  hasBegun : ∀ group, task.component = .group group →
    ({ task with phase := phase }.HasBegun ↔ task.HasBegun)
  children : ∀ child ∈ task.phase.children,
    child ∈ phase.children ∨ (relay.phaseOf child).isDone = true

theorem phaseOf_eq {other : Nat} (h : relay.tasks[other]? = some task) :
    relay.phaseOf other = task.phase := by
  rw [phaseOf, h]
  rfl

theorem isPart_setPhase (relay : Relay) (place : Nat) (phase : TaskPhase)
    (component : Component) : (relay.setPhase place phase).componentPath? component =
      relay.componentPath? component := by
  have hstep : TreeStep relay (relay.setPhase place phase) := .rests rfl
  exact hstep.componentPath? component

/-- A task before and after the phase of one task has changed. -/
structure SameTask (before after : Task) : Prop where
  component_eq : after.component = before.component
  hasBegun : ∀ group, before.component = .group group → (after.HasBegun ↔ before.HasBegun)
  of_done : before.phase.isDone = true → after = before

theorem SameTask.isOwn {before after : Task} (h : SameTask before after) :
    after.IsOwn ↔ before.IsOwn := by
  unfold Task.IsOwn
  rw [h.component_eq]
  exact forall_congr' fun hrelay => h.hasBegun _ hrelay

theorem InOrder.setPhase (h : relay.InOrder) (htask : relay.tasks[place]? = some task)
    {phase : TaskPhase} (hphase : relay.GoesOn task phase) :
    (relay.setPhase place phase).InOrder := by
  have hself : (relay.setPhase place phase).tasks[place]? =
      some { task with phase := phase } := by
    rw [getElem?_setPhase_self, htask]
    rfl
  have hsame : SameTask task { task with phase := phase } := by
    refine ⟨rfl, hphase.hasBegun, fun hdone => ?_⟩
    rw [hphase.not_done] at hdone
    cases hdone
  have hnext : ∀ {other : Nat} {before : Task}, relay.tasks[other]? = some before →
      ∃ after, (relay.setPhase place phase).tasks[other]? = some after ∧
        SameTask before after := by
    intro other before hbefore
    rcases getElem?_setPhase_cases phase htask hbefore with hkept | ⟨rfl, hlater⟩
    · exact ⟨before, hkept, rfl, fun _ _ => Iff.rfl, fun _ => rfl⟩
    · exact ⟨_, hlater, hsame⟩
  have hprevious : ∀ {other : Nat} {after : Task},
      (relay.setPhase place phase).tasks[other]? = some after →
      ∃ before, relay.tasks[other]? = some before ∧ SameTask before after ∧
        (after = before ∨ before = task ∧ after = { task with phase := phase }) := by
    intro other after hafter
    by_cases hother : other = place
    · subst hother
      rw [hself] at hafter
      obtain rfl := Option.some.inj hafter
      exact ⟨task, htask, hsame, .inr ⟨rfl, rfl⟩⟩
    · rw [getElem?_setPhase_of_ne relay hother] at hafter
      exact ⟨after, hafter, ⟨rfl, fun _ _ => Iff.rfl, fun _ => rfl⟩, .inl rfl⟩
  constructor
  case isPart =>
    intro other after hafter
    obtain ⟨before, hbefore, hsame, -⟩ := hprevious hafter
    rw [isPart_setPhase, hsame.component_eq]
    exact h.isPart hbefore
  case fits =>
    intro other after hafter
    obtain ⟨before, hbefore, -, rfl | ⟨-, rfl⟩⟩ := hprevious hafter
    · exact h.fits hbefore
    · exact hphase.fits
  case unique =>
    intro first second one another hone hanother hown hown' hcomponent
    obtain ⟨before, hbefore, hsame, -⟩ := hprevious hone
    obtain ⟨before', hbefore', hsame', -⟩ := hprevious hanother
    refine h.unique hbefore hbefore' (hsame.isOwn.mp hown) (hsame'.isOwn.mp hown') ?_
    rw [← hsame.component_eq, hcomponent, hsame'.component_eq]
  case hasRun =>
    refine h.hasRun.trans ⟨?_, ?_⟩
    · rintro ⟨other, before, hbefore, hrelay, hbegun⟩
      obtain ⟨after, hafter, hsame⟩ := hnext hbefore
      exact ⟨other, after, hafter, hsame.component_eq.trans hrelay,
        (hsame.hasBegun _ hrelay).mpr hbegun⟩
    · rintro ⟨other, after, hafter, hrelay, hbegun⟩
      obtain ⟨before, hbefore, hsame, -⟩ := hprevious hafter
      have hrelay' := hsame.component_eq.symm.trans hrelay
      exact ⟨other, before, hbefore, hrelay', (hsame.hasBegun _ hrelay').mp hbegun⟩
  case parent =>
    intro other after group hafter hparent
    obtain ⟨before, hbefore, hsame, -⟩ := hprevious hafter
    rw [hsame.component_eq] at hparent
    obtain ⟨place', above, habove, hgroup, hbegun⟩ := h.parent hbefore hparent
    obtain ⟨above', habove', hsame'⟩ := hnext habove
    exact ⟨place', above', habove', hsame'.component_eq.trans hgroup,
      (hsame'.hasBegun _ hgroup).mpr hbegun⟩
  case children =>
    intro other after group child hafter hgroup hbegun hparent hpart
    obtain ⟨before, hbefore, hsame, hwhich⟩ := hprevious hafter
    have hgroup' := hsame.component_eq.symm.trans hgroup
    rw [isPart_setPhase] at hpart
    obtain ⟨place', below, hbelow, hchild, hjoined⟩ :=
      h.children hbefore hgroup' ((hsame.hasBegun _ hgroup').mp hbegun) hparent hpart
    obtain ⟨below', hbelow', hsame'⟩ := hnext hbelow
    refine ⟨place', below', hbelow', hsame'.component_eq.trans hchild, ?_⟩
    have hdone : below.phase.isDone = true → below'.phase.isDone = true :=
      fun hdone => (hsame'.of_done hdone).symm ▸ hdone
    rcases hjoined with hjoined | hwaits
    · exact .inl (hdone hjoined)
    · rcases hwhich with rfl | ⟨rfl, rfl⟩
      · exact .inr hwaits
      · rcases hphase.children place' hwaits with hstill | hnow
        · exact .inr hstill
        · rw [phaseOf_eq hbelow] at hnow
          exact .inl (hdone hnow)

/-! ## Tasks that begin -/

/-- What a task of a group that has not begun shares its component with has not begun either. -/
theorem InOrder.not_begun (h : relay.InOrder) {group : Group} {token : Token}
    (htask : relay.tasks[place]? = some ⟨.group group, token, .ready⟩)
    (hfirst : group = .relay → relay.hasRun = false) {other : Nat} {another : Task}
    (hother : relay.tasks[other]? = some another) (hgroup : another.component = .group group) :
    ¬another.HasBegun := by
  intro hbegun
  by_cases hrelay : group = .relay
  · subst hrelay
    have hrun := h.hasRun.mpr ⟨other, another, hother, hgroup, hbegun⟩
    rw [hfirst rfl] at hrun
    cases hrun
  · have hown : (⟨.group group, token, .ready⟩ : Task).IsOwn :=
      fun heq => absurd (Component.group.inj heq) hrelay
    obtain rfl := h.unique hother htask (fun _ => hbegun) hown hgroup
    rw [htask] at hother
    obtain rfl := Option.some.inj hother
    exact hbegun

/-- No group is right below itself. -/
theorem parent_ne {component : Component} {group : Group} (h : component.parent? = some group) :
    component ≠ .group group := by
  rintro rfl
  cases group <;> cases h

theorem InOrder.opened (h : relay.InOrder) {group : Group} {token : Token}
    (htask : relay.tasks[place]? = some ⟨.group group, token, .ready⟩)
    (hfirst : group = .relay → relay.hasRun = false) :
    (relay.opened place group token).InOrder := by
  have hself := getElem?_opened_self htask
  have hparts : ∀ component, (relay.opened place group token).componentPath? component =
      relay.componentPath? component := by
    have hstep : TreeStep relay (relay.opened place group token) := .rests rfl
    exact hstep.componentPath?
  have hkept : ∀ {other : Nat} {before : Task}, relay.tasks[other]? = some before →
      other ≠ place → (relay.opened place group token).tasks[other]? = some before := by
    intro other before hbefore hplace
    rw [getElem?_opened_old hplace (List.getElem?_eq_some_iff.mp hbefore).1, hbefore]
  have hbegun_ne : ∀ {other : Nat} {before : Task}, relay.tasks[other]? = some before →
      before.HasBegun → other ≠ place := by
    rintro other before hbefore hbegun rfl
    rw [htask] at hbefore
    obtain rfl := Option.some.inj hbefore
    exact hbegun
  have hnot : ∀ {other : Nat} {another : Task}, relay.tasks[other]? = some another →
      another.component = .group group → ¬another.HasBegun :=
    fun hother hgroup => h.not_begun htask hfirst hother hgroup
  have hchild : ∀ {index : Nat} {component : Component},
      (relay.childrenOf group)[index]? = some component →
      component.parent? = some group ∧ (relay.componentPath? component).isSome :=
    fun hcomponent => mem_childrenOf.mp (List.mem_of_getElem? hcomponent)
  constructor
  case isPart =>
    intro other later hlater
    rw [hparts]
    rcases getElem?_opened_cases htask hlater with ⟨-, rfl⟩ | ⟨-, hold⟩ | ⟨index, -, hnew, -⟩
    · have hpart := h.isPart htask
      exact hpart
    · exact h.isPart hold
    · exact (hchild hnew).2
  case fits =>
    intro other later hlater
    rcases getElem?_opened_cases htask hlater with ⟨-, rfl⟩ | ⟨-, hold⟩ | ⟨index, -, -, hready⟩
    · cases group <;> trivial
    · exact h.fits hold
    · obtain ⟨component, token, phase⟩ := later
      obtain rfl : phase = .ready := hready
      cases component with
      | connection => trivial
      | group child => cases child <;> trivial
  case unique =>
    -- The group had no task of its own but this one, and its parts had none.
    have hother : ∀ {other : Nat} {later : Task}, other ≠ place →
        relay.tasks[other]? = some later → later.IsOwn → later.component ≠ .group group := by
      intro other later hplace hold hown hgroup
      by_cases hrelay : group = .relay
      · exact hnot hold hgroup (hown (hrelay ▸ hgroup))
      · have hready : (⟨.group group, token, .ready⟩ : Task).IsOwn :=
          fun heq => absurd (Component.group.inj heq) hrelay
        exact hplace (h.unique hold htask hown hready hgroup)
    have hbelow : ∀ {other index : Nat} {later : Task}, relay.tasks[other]? = some later →
        (relay.childrenOf group)[index]? ≠ some later.component := by
      intro other index later hold hnew
      obtain ⟨_, above, habove, hgroup, hbegun⟩ := h.parent hold (hchild hnew).1
      exact hnot habove hgroup hbegun
    intro first second one another hone hanother hown hown' hcomponent
    rcases getElem?_opened_cases htask hone with ⟨rfl, rfl⟩ | ⟨hplace, hold⟩ |
        ⟨index, rfl, hnew, -⟩ <;>
      rcases getElem?_opened_cases htask hanother with ⟨rfl, rfl⟩ | ⟨hplace', hold'⟩ |
        ⟨index', rfl, hnew', -⟩
    · rfl
    · exact absurd hcomponent.symm (hother hplace' hold' hown')
    · exact absurd hcomponent.symm (parent_ne (hchild hnew').1)
    · exact absurd hcomponent (hother hplace hold hown)
    · exact h.unique hold hold' hown hown' hcomponent
    · exact absurd (hcomponent ▸ hnew') (hbelow hold)
    · exact absurd hcomponent (parent_ne (hchild hnew).1)
    · exact absurd (hcomponent ▸ hnew) (hbelow hold')
    · rw [hcomponent, ← hnew'] at hnew
      have hlt := (List.getElem?_eq_some_iff.mp hnew').1
      rw [(List.getElem?_inj hlt (relay.nodup_childrenOf group)).mp hnew.symm]
  case hasRun =>
    have hrun : (relay.opened place group token).hasRun = true ↔
        relay.hasRun = true ∨ group = .relay := by
      simp [Relay.opened, Relay.setPhase, Relay.spawn]
    rw [hrun, h.hasRun]
    constructor
    · rintro (⟨other, before, hbefore, hrelay, hbegun⟩ | rfl)
      · exact ⟨other, before, hkept hbefore (hbegun_ne hbefore hbegun), hrelay, hbegun⟩
      · exact ⟨place, _, hself, rfl, trivial⟩
    · rintro ⟨other, later, hlater, hrelay, hbegun⟩
      rcases getElem?_opened_cases htask hlater with ⟨-, rfl⟩ | ⟨-, hold⟩ | ⟨index, -, hnew, -⟩
      · exact .inr (Component.group.inj hrelay)
      · exact .inl ⟨other, later, hold, hrelay, hbegun⟩
      · have hparent := (hchild hnew).1
        rw [hrelay] at hparent
        cases hparent
  case parent =>
    have habove : ∀ {other : Nat} {before : Task} {above : Group},
        relay.tasks[other]? = some before → before.component.parent? = some above →
        ∃ (place' : Nat) (task' : Task),
          (relay.opened place group token).tasks[place']? = some task' ∧
            task'.component = .group above ∧ task'.HasBegun := by
      intro other before above hbefore hparent
      obtain ⟨place', task', htask', hgroup, hbegun⟩ := h.parent hbefore hparent
      exact ⟨place', task', hkept htask' (hbegun_ne htask' hbegun), hgroup, hbegun⟩
    intro other later above hlater hparent
    rcases getElem?_opened_cases htask hlater with ⟨-, rfl⟩ | ⟨-, hold⟩ | ⟨index, -, hnew, -⟩
    · exact habove htask hparent
    · exact habove hold hparent
    · obtain rfl := Option.some.inj ((hchild hnew).1.symm.trans hparent)
      refine ⟨place, _, hself, rfl, ?_⟩
      cases group <;> trivial
  case children =>
    intro other later above child hlater hgroup hbegun hparent hpart
    rw [hparts] at hpart
    rcases getElem?_opened_cases htask hlater with ⟨-, rfl⟩ | ⟨-, hold⟩ | ⟨index, -, -, hready⟩
    · obtain rfl := Component.group.inj hgroup
      obtain ⟨index, hlt, hget⟩ := List.getElem_of_mem (mem_childrenOf.mpr ⟨hparent, hpart⟩)
      have hnew := getElem?_opened_new htask index
      rw [List.getElem?_eq_some_iff.mpr ⟨hlt, hget⟩, Option.map_some] at hnew
      refine ⟨relay.tasks.length + index, _, hnew, rfl, .inr ?_⟩
      simp only [TaskPhase.children, List.mem_range'_1]
      omega
    · obtain ⟨other', below, hbelow, hcomponent, hjoined⟩ :=
        h.children hold hgroup hbegun hparent hpart
      by_cases hplace : other' = place
      · subst hplace
        rw [htask] at hbelow
        obtain rfl := Option.some.inj hbelow
        refine ⟨other', _, hself, hcomponent, ?_⟩
        rcases hjoined with hdone | hwaits
        · cases hdone
        · exact .inr hwaits
      · exact ⟨other', below, hkept hbelow hplace, hcomponent, hjoined⟩
    · exact absurd hready (Task.phase_ne_ready hbegun)

/-- Another run of the relay is asked for. -/
theorem InOrder.run (h : relay.InOrder) (token : Token) :
    (relay.spawn [.group .relay] token).2.InOrder := by
  have hparts : ∀ component, (relay.spawn [.group .relay] token).2.componentPath? component =
      relay.componentPath? component := by
    have hstep : TreeStep relay (relay.spawn [.group .relay] token).2 := .rests rfl
    exact hstep.componentPath?
  have hkept : ∀ {other : Nat} {before : Task}, relay.tasks[other]? = some before →
      (relay.spawn [.group .relay] token).2.tasks[other]? = some before := by
    intro other before hbefore
    have hlt := (List.getElem?_eq_some_iff.mp hbefore).1
    simp only [spawn, List.getElem?_append_left hlt, hbefore]
  have hcases : ∀ {other : Nat} {later : Task},
      (relay.spawn [.group .relay] token).2.tasks[other]? = some later →
      relay.tasks[other]? = some later ∨ later = ⟨.group .relay, token, .ready⟩ := by
    intro other later hlater
    simp only [spawn, List.map_cons, List.map_nil] at hlater
    by_cases hold : other < relay.tasks.length
    · rw [List.getElem?_append_left hold] at hlater
      exact .inl hlater
    · rw [List.getElem?_append_right (Nat.le_of_not_lt hold)] at hlater
      exact .inr (List.mem_singleton.mp (List.mem_of_getElem? hlater))
  have hnot : ¬(⟨.group .relay, token, .ready⟩ : Task).HasBegun := id
  constructor
  case isPart =>
    intro other later hlater
    rw [hparts]
    rcases hcases hlater with hold | rfl
    · exact h.isPart hold
    · rfl
  case fits =>
    intro other later hlater
    rcases hcases hlater with hold | rfl
    · exact h.fits hold
    · trivial
  case unique =>
    intro first second one another hone hanother hown hown' hcomponent
    rcases hcases hone with hold | rfl
    · rcases hcases hanother with hold' | rfl
      · exact h.unique hold hold' hown hown' hcomponent
      · exact absurd (hown' rfl) hnot
    · exact absurd (hown rfl) hnot
  case hasRun =>
    refine h.hasRun.trans ⟨?_, ?_⟩
    · rintro ⟨other, before, hbefore, hrelay, hbegun⟩
      exact ⟨other, before, hkept hbefore, hrelay, hbegun⟩
    · rintro ⟨other, later, hlater, hrelay, hbegun⟩
      rcases hcases hlater with hold | rfl
      · exact ⟨other, later, hold, hrelay, hbegun⟩
      · exact absurd hbegun hnot
  case parent =>
    intro other later group hlater hparent
    rcases hcases hlater with hold | rfl
    · obtain ⟨place, above, habove, hgroup, hbegun⟩ := h.parent hold hparent
      exact ⟨place, above, hkept habove, hgroup, hbegun⟩
    · cases hparent
  case children =>
    intro other later group child hlater hgroup hbegun hparent hpart
    rw [hparts] at hpart
    rcases hcases hlater with hold | rfl
    · obtain ⟨place, below, hbelow, hchild, hjoined⟩ :=
        h.children hold hgroup hbegun hparent hpart
      exact ⟨place, below, hkept hbelow, hchild, hjoined⟩
    · exact absurd hbegun hnot

/-! ## Deeds keep the order -/

/-- A connection is no group, and has no parts to be joined. -/
theorem goesOn_connection (relay : Relay) {id : ConnectionId} {token : Token}
    {before after : TaskPhase} (hfits : (⟨.connection id, token, after⟩ : Task).Fits)
    (hdone : before.isDone = false) (hchildren : before.children = []) :
    relay.GoesOn ⟨.connection id, token, before⟩ after where
  fits := hfits
  not_done := hdone
  hasBegun := fun _ hgroup => absurd hgroup (by simp)
  children := by simp [hchildren]

theorem Settles.goesOn {phase : TaskPhase} (h : relay.Settles task phase)
    (hpart : (relay.componentPath? task.component).isSome) : relay.GoesOn task phase := by
  cases h with
  | refuses => exact ⟨rfl, rfl, fun _ _ => Iff.rfl, fun _ hchild => absurd hchild List.not_mem_nil⟩
  | strays hpath =>
      simp only [componentPath?, hpath] at hpart
      cases hpart
  | skips => exact goesOn_connection _ trivial rfl rfl
  | @joins group token children failures child hdone failures' =>
      refine ⟨by cases group <;> trivial, rfl, fun _ _ => by cases group <;> exact Iff.rfl, ?_⟩
      intro other hother
      by_cases hsame : other = child
      · exact .inr (hsame ▸ hdone)
      · exact .inl ((List.mem_erase_of_ne hsame).mpr hother)
  | arrives => exact goesOn_connection _ trivial rfl rfl

theorem goesOn_ends (relay : Relay) (group : Group) (token : Token) (failures : Nat)
    (path : ComponentPath) :
    relay.GoesOn ⟨.group group, token, .joining [] failures⟩
      (.done ((groupFailure? group path failures).map .relay)) := by
  -- The relay itself does not fail, and so its task has begun and is done.
  have hnone : groupFailure? .relay path failures = none := by
    unfold groupFailure?
    split_ifs <;> rfl
  refine ⟨?_, rfl, fun _ _ => ?_, fun _ hchild => absurd hchild List.not_mem_nil⟩
  · cases group with
    | relay => simp [Task.Fits, hnone]
    | server => simp [Task.Fits]
    | endpoint => simp [Task.Fits]
  · cases group with
    | relay => simp [Task.HasBegun, hnone]
    | server => simp [Task.HasBegun]
    | endpoint => simp [Task.HasBegun]

variable {move : Move} {change : Change}

theorem Deed.inOrder (h : Deed relay move change) (hmove : move.RunsRelayOnly)
    (horder : relay.InOrder) : change.relay.InOrder := by
  have hparts := h.treeStep.componentPath?
  cases h with
  | notes => exact horder
  | cancels => exact horder.congr (tasks_cancel _ _) (hasRun_cancel _ _) hparts
  | closesFanOut =>
      exact horder.congr (tasks_closeFanOut _ _ _) (hasRun_closeFanOut _ _ _) hparts
  | signals => exact horder.congr (tasks_act _ _ _) (hasRun_act _ _ _) hparts
  | closes => exact horder.congr (tasks_act _ _ _) (hasRun_act _ _ _) hparts
  | runs component token =>
      obtain rfl : component = .group .relay := hmove
      exact horder.run token
  | settles htask hsettles =>
      exact horder.setPhase htask (hsettles.goesOn (horder.isPart htask))
  | @begins _ place id token _ htask =>
      have hacted := horder.congr (tasks_act relay id (.run token (relay.isCancelled token)))
        (hasRun_act _ _ _) (act_treeStep _ _ _).componentPath?
      refine hacted.setPhase (by rwa [tasks_act]) ?_
      exact goesOn_connection _ trivial rfl rfl
  | opens htask _ hfirst => exact horder.opened htask hfirst
  | ends htask _ => exact horder.setPhase htask (goesOn_ends _ _ _ _ _)

end Relay

end LiveRelay
