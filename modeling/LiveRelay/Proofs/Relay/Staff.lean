import LiveRelay.Proofs.Relay.Errands
import LiveRelay.Proofs.Relay.Joining
import LiveRelay.Proofs.Relay.Return

/-! # The tasks that a task has started

The task of a group starts a task for each of its parts, and these are its staff. It joins each
of them once, and how many of them have failed is what it returns and reports (`GroupCourse`). In
which order they are done and joined is without effect.
-/

namespace LiveRelay

namespace Relay

variable {relay later : Relay} {place : Nat} {move : Move} {seen : List Occurrence}
  {group : Group} {staff : List Nat}

/-- The tasks that the task at `place` starts in a move. -/
def startedIn (relay : Relay) (place : Nat) : Move → List Nat
  | .poll actor =>
      if actor = place then
        List.range' relay.tasks.length
          ((relay.step (.poll place)).relay.tasks.length - relay.tasks.length)
      else []
  | _ => []

/-- The tasks that the task at `place` starts in these moves, in order. -/
def startedBy (place : Nat) : Relay → List Move → List Nat
  | _, [] => []
  | relay, move :: moves =>
      relay.startedIn place move ++ startedBy place (relay.step move).relay moves

theorem startedBy_append_singleton (relay : Relay) (moves : List Move) (move : Move) :
    relay.startedBy place (moves ++ [move]) =
      relay.startedBy place moves ++ (relay.stepAll moves).relay.startedIn place move := by
  induction moves generalizing relay with
  | nil => exact List.append_nil _
  | cons first moves ih =>
      rw [List.cons_append, startedBy, startedBy, ih, stepAll_cons, List.append_assoc]
      rfl

theorem startedIn_of_ne (h : move ≠ .poll place) : relay.startedIn place move = [] := by
  cases move with
  | poll actor =>
      have hactor : actor ≠ place := fun hsame => h (congrArg Move.poll hsame)
      simp only [startedIn, if_neg hactor]
  | _ => rfl

theorem startedIn_of_length {added : Nat}
    (h : (relay.step (.poll place)).relay.tasks.length = relay.tasks.length + added) :
    relay.startedIn place (.poll place) = List.range' relay.tasks.length added := by
  simp only [startedIn, if_true, h, Nat.add_sub_cancel_left]

theorem startedIn_of_same
    (h : (relay.step (.poll place)).relay.tasks.length = relay.tasks.length) :
    relay.startedIn place (.poll place) = [] := by
  rw [← Nat.add_zero relay.tasks.length] at h
  exact startedIn_of_length h

/-! ## What goes on and what stays -/

/-- Between two moments the parts of the tree stay the same, and no task is lost or goes on when
it is done. -/
structure Continues (before after : Relay) : Prop where
  parts : ∀ component, after.componentPath? component = before.componentPath? component
  task : ∀ {place : Nat} {task}, before.tasks[place]? = some task →
    ∃ next, after.tasks[place]? = some next ∧ next.component = task.component ∧
      (task.phase.isDone = true → next = task)

theorem Deed.continues {change : Change} (h : Deed relay move change) :
    relay.Continues change.relay where
  parts := h.treeStep.componentPath?
  task := by
    intro place task htask
    rcases h.task htask with hsame | ⟨phase, hadvances, hnext⟩
    · exact ⟨task, hsame, rfl, fun _ => rfl⟩
    · refine ⟨_, hnext, rfl, fun hdone => ?_⟩
      rw [hadvances.not_done] at hdone
      cases hdone

theorem Continues.trans {middle after : Relay} (first : relay.Continues middle)
    (second : middle.Continues after) : relay.Continues after where
  parts := fun component => (second.parts component).trans (first.parts component)
  task := by
    intro place task htask
    obtain ⟨next, hnext, hcomponent, hdone⟩ := first.task htask
    obtain ⟨last, hlast, hcomponent', hdone'⟩ := second.task hnext
    refine ⟨last, hlast, hcomponent'.trans hcomponent, fun hisDone => ?_⟩
    obtain rfl := hdone hisDone
    exact hdone' hisDone

theorem step_continues (relay : Relay) (move : Move) :
    relay.Continues (relay.step move).relay :=
  step_induction (motive := fun later _ => relay.Continues later)
    ⟨fun _ => rfl, fun htask => ⟨_, htask, rfl, fun _ => rfl⟩⟩
    fun hbefore hdeed => hbefore.trans hdeed.continues

namespace Continues

theorem childrenOf_eq (h : relay.Continues later) (group : Group) :
    later.childrenOf group = relay.childrenOf group := by
  have hsize : later.sizeOf group = relay.sizeOf group := by
    apply eq_of_forall_lt_iff
    intro index
    rw [lt_sizeOf_iff, lt_sizeOf_iff, h.parts]
  rw [Relay.childrenOf_eq, Relay.childrenOf_eq, hsize]

theorem pathOf?_eq (h : relay.Continues later) (group : Group) :
    later.pathOf? group = relay.pathOf? group :=
  h.parts (.group group)

theorem phaseOf_eq (h : relay.Continues later) {task : Nat} (hlt : task < relay.tasks.length)
    (hdone : (relay.phaseOf task).isDone = true) : later.phaseOf task = relay.phaseOf task := by
  have htask := List.getElem?_eq_getElem hlt
  obtain ⟨next, hnext, -, hsame⟩ := h.task htask
  rw [Relay.phaseOf_eq htask] at hdone ⊢
  rw [Relay.phaseOf_eq hnext, hsame hdone]

end Continues

/-! ## The course of a group -/

/-- These tasks run these components. -/
def Serve (relay : Relay) (tasks : List Nat) (components : List Component) : Prop :=
  tasks.map (fun task => relay.tasks[task]?.map Task.component) = components.map some

namespace Serve

variable {tasks : List Nat} {components : List Component}

theorem length_eq (h : relay.Serve tasks components) : tasks.length = components.length := by
  have hlength := congrArg List.length h
  rwa [List.length_map, List.length_map] at hlength

theorem getElem? (h : relay.Serve tasks components) {index task : Nat}
    (htask : tasks[index]? = some task) :
    ∃ found, relay.tasks[task]? = some found ∧ components[index]? = some found.component := by
  have hget := congrArg (·[index]?) h
  simp only [List.getElem?_map, htask, Option.map_some] at hget
  obtain ⟨component, hcomponent, hsame⟩ := Option.map_eq_some_iff.mp hget.symm
  obtain ⟨found, hfound, rfl⟩ := Option.map_eq_some_iff.mp hsame.symm
  exact ⟨found, hfound, hcomponent⟩

theorem task (h : relay.Serve tasks components) {task : Nat} (htask : task ∈ tasks) :
    ∃ found, relay.tasks[task]? = some found ∧ found.component ∈ components := by
  obtain ⟨index, hindex⟩ := List.mem_iff_getElem?.mp htask
  obtain ⟨found, hfound, hcomponent⟩ := h.getElem? hindex
  exact ⟨found, hfound, List.mem_of_getElem? hcomponent⟩

theorem lt (h : relay.Serve tasks components) {task : Nat} (htask : task ∈ tasks) :
    task < relay.tasks.length := by
  obtain ⟨found, hfound, -⟩ := h.task htask
  exact (List.getElem?_eq_some_iff.mp hfound).1

theorem continues (h : relay.Serve tasks components) (hlater : relay.Continues later) :
    later.Serve tasks components := by
  refine Eq.trans ?_ h
  apply List.map_congr_left
  intro task htask
  obtain ⟨found, hfound, -⟩ := h.task htask
  obtain ⟨next, hnext, hcomponent, -⟩ := hlater.task hfound
  rw [hnext, hfound, Option.map_some, Option.map_some, hcomponent]

end Serve

/-- What has become of a run of a group that has started the tasks in `staff`. -/
inductive GroupCourse (relay : Relay) (seen : List Occurrence) (group : Group)
    (staff : List Nat) : TaskPhase → Prop
  | ready (hstaff : staff = []) : GroupCourse relay seen group staff .ready
  | declined {failure : Option TaskFailure} (hstaff : staff = [])
      (hfailure : relay.pathOf? group = none ∧ failure = none ∨
        group = .relay ∧ failure = some (.relay .alreadyRunning)) :
      GroupCourse relay seen group staff (.done failure)
  /-- Its staff are those that it has joined, which are done, and those that it has not. -/
  | joining {path : ComponentPath} {joined children : List Nat} {failures : Nat}
      (hpath : relay.pathOf? group = some path)
      (hstaff : relay.Serve staff (relay.childrenOf group))
      (hshare : (joined ++ children).Perm staff)
      (hdone : ∀ child ∈ joined, (relay.phaseOf child).isDone = true)
      (hfailures : failures = joined.countP relay.hasFailed) :
      GroupCourse relay seen group staff (.joining children failures)
  | ended {path : ComponentPath} (hpath : relay.pathOf? group = some path)
      (hstaff : relay.Serve staff (relay.childrenOf group))
      (hdone : ∀ child ∈ staff, (relay.phaseOf child).isDone = true)
      (hseen : .event ⟨path, .stopped (stopText? group path (staff.countP relay.hasFailed))⟩ ∈
        seen) :
      GroupCourse relay seen group staff
        (.done ((groupFailure? group path (staff.countP relay.hasFailed)).map .relay))

theorem countP_hasFailed_eq (h : relay.Continues later) {tasks : List Nat}
    (hlt : ∀ task ∈ tasks, task < relay.tasks.length)
    (hdone : ∀ task ∈ tasks, (relay.phaseOf task).isDone = true) :
    tasks.countP later.hasFailed = tasks.countP relay.hasFailed := by
  apply List.countP_congr
  intro task htask
  rw [hasFailed, hasFailed, h.phaseOf_eq (hlt task htask) (hdone task htask)]

namespace GroupCourse

variable {phase : TaskPhase}

theorem staff_done (h : relay.GroupCourse seen group staff phase) (hdone : phase.isDone = true) :
    (∀ task ∈ staff, task < relay.tasks.length) ∧
      ∀ task ∈ staff, (relay.phaseOf task).isDone = true := by
  cases h with
  | ready => cases hdone
  | joining => cases hdone
  | declined hstaff =>
      subst hstaff
      exact ⟨List.forall_mem_nil _, List.forall_mem_nil _⟩
  | ended _ hstaff hall => exact ⟨fun _ htask => hstaff.lt htask, hall⟩

/-- The course of a group is the same in the eyes of a later moment. -/
theorem continues (h : relay.GroupCourse seen group staff phase) (hlater : relay.Continues later)
    {all : List Occurrence} (hall : seen ⊆ all) : later.GroupCourse all group staff phase := by
  have hstays : ∀ {tasks : List Nat}, (∀ task ∈ tasks, task < relay.tasks.length) →
      (∀ task ∈ tasks, (relay.phaseOf task).isDone = true) →
      ∀ task ∈ tasks, (later.phaseOf task).isDone = true := by
    intro tasks hlt hdone task htask
    rw [hlater.phaseOf_eq (hlt task htask) (hdone task htask)]
    exact hdone task htask
  cases h with
  | ready hstaff => exact .ready hstaff
  | declined hstaff hfailure =>
      apply GroupCourse.declined hstaff
      rwa [hlater.pathOf?_eq]
  | @joining _ joined children _ hpath hstaff hshare hdone hfailures =>
      have hlt : ∀ task ∈ joined, task < relay.tasks.length := fun task htask =>
        hstaff.lt (hshare.mem_iff.mp (List.mem_append_left children htask))
      apply GroupCourse.joining ((hlater.pathOf?_eq group).trans hpath) _ hshare
        (hstays hlt hdone)
      · rw [hfailures, countP_hasFailed_eq hlater hlt hdone]
      · rw [hlater.childrenOf_eq]
        exact hstaff.continues hlater
  | ended hpath hstaff hdone hseen =>
      have hlt : ∀ task ∈ staff, task < relay.tasks.length := fun _ htask => hstaff.lt htask
      rw [← countP_hasFailed_eq hlater hlt hdone] at hseen ⊢
      apply GroupCourse.ended ((hlater.pathOf?_eq group).trans hpath) _ (hstays hlt hdone)
        (hall hseen)
      rw [hlater.childrenOf_eq]
      exact hstaff.continues hlater

/-- The group joins one more of its staff, and notes whether it has failed. -/
theorem join {children : List Nat} {failures child : Nat}
    (h : relay.GroupCourse seen group staff (.joining children failures))
    (hchild : child ∈ children) (hdone : (relay.phaseOf child).isDone = true) :
    relay.GroupCourse seen group staff
      (.joining (children.erase child) (failures + (relay.hasFailed child).toNat)) := by
  cases h with
  | @joining _ joined _ _ hpath hstaff hshare hjoined hfailures =>
      have hmoved : (child :: joined ++ children.erase child).Perm (joined ++ children) :=
        List.perm_middle.symm.trans ((List.perm_cons_erase hchild).symm.append_left joined)
      apply GroupCourse.joining hpath hstaff (hmoved.trans hshare)
      · intro task htask
        rcases List.mem_cons.mp htask with rfl | hearlier
        · exact hdone
        · exact hjoined task hearlier
      · rw [hfailures, List.countP_cons]
        cases relay.hasFailed child <;> rfl

/-- When nobody is left to be joined, the failures of all its staff have been noted. -/
theorem failures_eq {failures : Nat}
    (h : relay.GroupCourse seen group staff (.joining [] failures)) :
    failures = staff.countP relay.hasFailed := by
  cases h with
  | joining _ _ hshare _ hfailures =>
      rw [List.append_nil] at hshare
      rw [hfailures, hshare.countP_eq]

theorem joined_done {failures : Nat}
    (h : relay.GroupCourse seen group staff (.joining [] failures)) :
    ∀ task ∈ staff, (relay.phaseOf task).isDone = true := by
  cases h with
  | joining _ _ hshare hjoined =>
      rw [List.append_nil] at hshare
      exact fun task htask => hjoined task (hshare.mem_iff.mpr htask)

theorem children_subset {children : List Nat} {failures : Nat}
    (h : relay.GroupCourse seen group staff (.joining children failures)) : children ⊆ staff := by
  cases h with
  | @joining _ joined _ _ _ _ hshare =>
      exact fun task htask => hshare.mem_iff.mp (List.mem_append_right joined htask)

theorem pathOf?_isSome {children : List Nat} {failures : Nat}
    (h : relay.GroupCourse seen group staff (.joining children failures)) :
    ∃ path, relay.pathOf? group = some path := by
  cases h with
  | joining hpath => exact ⟨_, hpath⟩

theorem finish {failures : Nat} {path : ComponentPath}
    (h : relay.GroupCourse seen group staff (.joining [] failures))
    (hpath : relay.pathOf? group = some path) {all : List Occurrence}
    (hseen : .event ⟨path, .stopped (stopText? group path failures)⟩ ∈ all) :
    relay.GroupCourse all group staff
      (.done ((groupFailure? group path failures).map .relay)) := by
  rw [h.failures_eq] at hseen ⊢
  have hdone := h.joined_done
  cases h with
  | joining _ hstaff => exact .ended hpath hstaff hdone hseen

end GroupCourse

/-! ## What a move starts -/

/-- Only the task of a group starts others, when it is looked at for the first time: one for each
of its parts. -/
inductive Starts (relay : Relay) (place : Nat) : Move → List Nat → Prop
  | nobody {move : Move} : Starts relay place move []
  | parts {group : Group} {token : Token} {path : ComponentPath}
      (htask : relay.tasks[place]? = some ⟨.group group, token, .ready⟩)
      (hpath : relay.pathOf? group = some path)
      (htasks : (relay.step (.poll place)).relay.tasks = (relay.opened place group token).tasks)
      (hlength : (relay.step (.poll place)).relay.tasks.length =
        relay.tasks.length + (relay.childrenOf group).length) :
      Starts relay place (.poll place)
        (List.range' relay.tasks.length (relay.childrenOf group).length)

theorem length_tasks_opened (place : Nat) (group : Group) (token : Token) :
    (relay.opened place group token).tasks.length =
      relay.tasks.length + (relay.childrenOf group).length := by
  simp only [opened, setPhase, spawn, List.length_modify, List.length_append, List.length_map]
  rfl

theorem startedIn_starts (hpaths : relay.HasOwnPaths) (place : Nat) (move : Move) :
    relay.Starts place move (relay.startedIn place move) := by
  by_cases hpoll : move = .poll place
  · subst hpoll
    have hkeeps : (relay.step (.poll place)).relay.tasks.length = relay.tasks.length →
        relay.Starts place (.poll place) (relay.startedIn place (.poll place)) := by
      intro hlength
      rw [startedIn_of_same hlength]
      exact .nobody
    have hsets : ∀ phase : TaskPhase,
        (relay.step (.poll place)).relay.tasks = (relay.setPhase place phase).tasks →
        relay.Starts place (.poll place) (relay.startedIn place (.poll place)) := by
      intro phase htasks
      apply hkeeps
      rw [htasks]
      exact List.length_modify ..
    cases poll_errand hpaths place with
    | waits htasks => exact hkeeps (congrArg List.length htasks)
    | drives _ htasks => exact hsets _ htasks
    | declines _ _ htasks => exact hsets _ htasks
    | joins _ _ _ htasks => exact hsets _ htasks
    | ends _ _ htasks => exact hsets _ htasks
    | @opens group token path htask hpath htasks =>
        have hlength := (congrArg List.length htasks).trans (length_tasks_opened place group token)
        rw [startedIn_of_length hlength]
        exact .parts htask hpath htasks hlength
  · rw [startedIn_of_ne hpoll]
    exact .nobody

/-- The tasks that a group starts are those of its parts. -/
theorem serve_opened {token : Token}
    (htask : relay.tasks[place]? = some ⟨.group group, token, .ready⟩)
    (htasks : later.tasks = (relay.opened place group token).tasks) :
    later.Serve (List.range' relay.tasks.length (relay.childrenOf group).length)
      (relay.childrenOf group) := by
  unfold Serve
  apply List.ext_getElem?
  intro index
  rw [List.getElem?_map, List.getElem?_map]
  by_cases hindex : index < (relay.childrenOf group).length
  · rw [List.getElem?_range' hindex, Option.map_some, htasks, Nat.one_mul,
      getElem?_opened_new htask, List.getElem?_eq_getElem hindex]
    rfl
  · rw [List.getElem?_eq_none (by simpa using hindex),
      List.getElem?_eq_none (Nat.le_of_not_lt hindex)]
    rfl

/-! ## All runs of groups -/

/-- What is known of the staff of all tasks. -/
structure IsManned (relay : Relay) (staff : Nat → List Nat) (seen : List Occurrence) : Prop where
  absent : ∀ place, relay.tasks.length ≤ place → staff place = []
  lt : ∀ place child, child ∈ staff place → child < relay.tasks.length
  /-- Nobody starts a task that another has started. -/
  once : ∀ first second child, child ∈ staff first → child ∈ staff second → first = second
  course : ∀ {place : Nat} {group token phase},
    relay.tasks[place]? = some ⟨.group group, token, phase⟩ →
    relay.GroupCourse seen group (staff place) phase
  /-- Who reports that a group has stopped has run it to its end. -/
  reported : ∀ group path text, relay.pathOf? group = some path →
    .event ⟨path, .stopped text⟩ ∈ seen → ∃ (place : Nat) (token : Token),
      relay.tasks[place]? = some ⟨.group group, token,
        .done ((groupFailure? group path ((staff place).countP relay.hasFailed)).map .relay)⟩ ∧
      text = stopText? group path ((staff place).countP relay.hasFailed)

namespace IsManned

variable {staff : Nat → List Nat}

/-- The task of a group that is looked at goes on in its course. -/
theorem course_poll (h : relay.IsManned staff seen) (hpaths : relay.HasOwnPaths) {token : Token}
    {phase : TaskPhase} (hlater : (relay.step (.poll place)).relay.tasks[place]? =
      some ⟨.group group, token, phase⟩) :
    (relay.step (.poll place)).relay.GroupCourse
      (seen ++ (relay.step (.poll place)).occurrences) group
      (staff place ++ relay.startedIn place (.poll place)) phase := by
  have hcontinues := relay.step_continues (.poll place)
  have hearlier : seen ⊆ seen ++ (relay.step (.poll place)).occurrences :=
    List.subset_append_left _ _
  -- If one task goes on to a phase then none is started.
  have hgoesOn : ∀ {before after : TaskPhase},
      relay.tasks[place]? = some ⟨.group group, token, before⟩ →
      (relay.step (.poll place)).relay.tasks = (relay.setPhase place after).tasks →
      phase = after ∧ relay.startedIn place (.poll place) = [] := by
    intro before after htask htasks
    constructor
    · rw [htasks, getElem?_setPhase_self, htask] at hlater
      cases hlater
      rfl
    · apply startedIn_of_same
      rw [htasks]
      exact List.length_modify ..
  have hsame : ∀ {actor : Component} {watched : Token} {before after : TaskPhase},
      relay.tasks[place]? = some ⟨actor, watched, before⟩ →
      (relay.step (.poll place)).relay.tasks = (relay.setPhase place after).tasks →
      actor = .group group ∧ watched = token := by
    intro actor watched before after htask htasks
    rw [htasks, getElem?_setPhase_self, htask] at hlater
    cases hlater
    exact ⟨rfl, rfl⟩
  cases poll_errand hpaths place with
  | waits htasks =>
      rw [startedIn_of_same (congrArg List.length htasks), List.append_nil]
      rw [htasks] at hlater
      exact (h.course hlater).continues hcontinues hearlier
  | drives htask htasks => cases (hsame htask htasks).1
  | declines htask hfailure htasks =>
      obtain ⟨⟨⟩, rfl⟩ := hsame htask htasks
      obtain ⟨rfl, hnobody⟩ := hgoesOn htask htasks
      rw [hnobody, List.append_nil]
      cases h.course htask with
      | ready hstaff =>
          have hdeclined : relay.GroupCourse seen group (staff place) _ :=
            .declined hstaff hfailure
          exact hdeclined.continues hcontinues hearlier
  | joins htask hchild hdone htasks =>
      obtain ⟨⟨⟩, rfl⟩ := hsame htask htasks
      obtain ⟨rfl, hnobody⟩ := hgoesOn htask htasks
      rw [hnobody, List.append_nil]
      exact ((h.course htask).join hchild hdone).continues hcontinues hearlier
  | ends htask hpath htasks hseen =>
      obtain ⟨⟨⟩, rfl⟩ := hsame htask htasks
      obtain ⟨rfl, hnobody⟩ := hgoesOn htask htasks
      rw [hnobody, List.append_nil]
      obtain ⟨above, habove⟩ := (h.course htask).pathOf?_isSome
      rw [habove, Option.getD_some] at hpath
      subst hpath
      have hlast := (hseen _).mpr rfl
      exact ((h.course htask).finish habove (List.mem_append_right seen hlast)).continues
        hcontinues (List.Subset.refl _)
  | opens htask hpath htasks =>
      rw [htasks, getElem?_opened_self htask] at hlater
      cases hlater
      have hlength := (congrArg List.length htasks).trans (length_tasks_opened place group token)
      rw [startedIn_of_length hlength]
      cases h.course htask with
      | ready hstaff =>
          rw [hstaff, List.nil_append]
          have hserve : (relay.step (.poll place)).relay.Serve
              (List.range' relay.tasks.length (relay.childrenOf group).length)
              ((relay.step (.poll place)).relay.childrenOf group) := by
            rw [hcontinues.childrenOf_eq]
            exact serve_opened htask htasks
          -- Nobody has been joined so far.
          have hshare := List.Perm.refl
            ([] ++ List.range' relay.tasks.length (relay.childrenOf group).length)
          rw [← hcontinues.pathOf?_eq] at hpath
          exact .joining hpath hserve hshare (List.forall_mem_nil _) rfl

/-- Who starts a task has not been looked at before. -/
theorem startedIn_of_begun (hpaths : relay.HasOwnPaths) {task : Task}
    (htask : relay.tasks[place]? = some task) (hphase : task.phase ≠ .ready) (move : Move) :
    relay.startedIn place move = [] := by
  have hstarts := startedIn_starts hpaths place move
  generalize relay.startedIn place move = added at hstarts ⊢
  cases hstarts with
  | nobody => rfl
  | parts hready =>
      cases htask.symm.trans hready
      exact absurd rfl hphase

/-- A report that a group has stopped comes from the task that has run it to its end. -/
theorem reported_step (h : relay.IsManned staff seen) (hpaths : relay.HasOwnPaths)
    {path : ComponentPath} {text : Option String} (hpath : relay.pathOf? group = some path)
    (hseen : .event ⟨path, .stopped text⟩ ∈ (relay.step move).occurrences) :
    ∃ (place : Nat) (token : Token), (∃ failures,
      relay.tasks[place]? = some ⟨.group group, token, .joining [] failures⟩) ∧
      (relay.step move).relay.tasks[place]? = some ⟨.group group, token,
        .done ((groupFailure? group path ((staff place).countP relay.hasFailed)).map .relay)⟩ ∧
      text = stopText? group path ((staff place).countP relay.hasFailed) := by
  by_cases hpoll : ∃ place, move = .poll place
  · obtain ⟨place, rfl⟩ := hpoll
    cases poll_errand hpaths place with
    | waits _ hquiet => exact absurd hseen (hquiet group path text hpath)
    | drives _ _ hquiet => exact absurd hseen (hquiet group path text hpath)
    | declines _ _ _ hquiet => exact absurd hseen (hquiet group path text hpath)
    | opens _ _ _ hquiet => exact absurd hseen (hquiet group path text hpath)
    | joins _ _ _ _ hquiet => exact absurd hseen (hquiet group path text hpath)
    | @ends other token failures last htask hlast htasks hends =>
        obtain ⟨above, habove⟩ := (h.course htask).pathOf?_isSome
        rw [habove, Option.getD_some] at hlast
        subst hlast
        obtain ⟨rfl, hstopped⟩ := Event.mk.inj ((hends _).mp hseen)
        obtain rfl := Component.group.inj (hpaths (.group other) (.group group) path habove hpath)
        refine ⟨place, token, ⟨failures, htask⟩, ?_⟩
        rw [← (h.course htask).failures_eq, htasks, getElem?_setPhase_self, htask]
        exact ⟨rfl, EventKind.stopped.inj hstopped⟩
  · obtain ⟨-, hquiet⟩ := step_grows hpaths fun place hplace => hpoll ⟨place, hplace⟩
    exact absurd hseen (hquiet group path text hpath)

theorem step (h : relay.IsManned staff seen) (hpaths : relay.HasOwnPaths) (move : Move) :
    (relay.step move).relay.IsManned (fun place => staff place ++ relay.startedIn place move)
      (seen ++ (relay.step move).occurrences) := by
  have hcontinues := relay.step_continues move
  have hlength : relay.tasks.length ≤ (relay.step move).relay.tasks.length := by
    by_contra hfewer
    have hlast := List.getElem?_eq_getElem (Nat.lt_of_not_le hfewer)
    obtain ⟨next, hnext, -⟩ := hcontinues.task hlast
    rw [List.getElem?_eq_none (Nat.le_refl _)] at hnext
    cases hnext
  -- What is started is numbered from where the tasks ended.
  have hnew : ∀ place child, child ∈ relay.startedIn place move →
      move = .poll place ∧ relay.tasks.length ≤ child ∧
        child < (relay.step move).relay.tasks.length := by
    intro place child hchild
    have hstarts := startedIn_starts hpaths place move
    generalize relay.startedIn place move = added at hstarts hchild
    cases hstarts with
    | nobody => cases hchild
    | parts _ _ _ hlater =>
        rw [List.mem_range'_1] at hchild
        exact ⟨rfl, hchild.1, hlater ▸ hchild.2⟩
  constructor
  case absent =>
    intro place hplace
    have hold : relay.tasks.length ≤ place := Nat.le_trans hlength hplace
    have hstarts := startedIn_starts hpaths place move
    generalize relay.startedIn place move = added at hstarts ⊢
    cases hstarts with
    | nobody => rw [List.append_nil, h.absent place hold]
    | parts htask => exact absurd (List.getElem?_eq_some_iff.mp htask).1 (Nat.not_lt.mpr hold)
  case lt =>
    intro place child hchild
    rcases List.mem_append.mp hchild with hbefore | hnow
    · exact Nat.lt_of_lt_of_le (h.lt place child hbefore) hlength
    · exact (hnew place child hnow).2.2
  case once =>
    intro first second child hfirst hsecond
    rcases List.mem_append.mp hfirst with hbefore | hnow <;>
      rcases List.mem_append.mp hsecond with hbefore' | hnow'
    · exact h.once first second child hbefore hbefore'
    · exact absurd (h.lt first child hbefore) (Nat.not_lt.mpr (hnew second child hnow').2.1)
    · exact absurd (h.lt second child hbefore') (Nat.not_lt.mpr (hnew first child hnow).2.1)
    · exact Move.poll.inj ((hnew first child hnow).1.symm.trans (hnew second child hnow').1)
  case course =>
    intro place group token phase hlater
    by_cases hpoll : move = .poll place
    · subst hpoll
      exact h.course_poll hpaths hlater
    · rw [startedIn_of_ne hpoll, List.append_nil]
      rcases task_of_step hpaths hpoll hlater with hsame | ⟨hplace, rfl⟩
      · exact (h.course hsame).continues hcontinues (List.subset_append_left _ _)
      · exact .ready (h.absent place hplace)
  case reported =>
    intro group path text hpath hmem
    rw [hcontinues.pathOf?_eq] at hpath
    -- The staff of a task that is done have failed or not.
    have hcount : ∀ {place : Nat} {token : Token} {phase : TaskPhase},
        relay.tasks[place]? = some ⟨.group group, token, phase⟩ → phase ≠ .ready →
        (∀ task ∈ staff place, (relay.phaseOf task).isDone = true) →
        (staff place ++ relay.startedIn place move).countP (relay.step move).relay.hasFailed =
          (staff place).countP relay.hasFailed := by
      intro place token phase htask hphase hdone
      rw [startedIn_of_begun hpaths htask hphase, List.append_nil]
      exact countP_hasFailed_eq hcontinues (h.lt place) hdone
    rcases List.mem_append.mp hmem with hbefore | hnow
    · obtain ⟨place, token, htask, htext⟩ := h.reported group path text hpath hbefore
      obtain ⟨next, hnext, -, hsame⟩ := hcontinues.task htask
      refine ⟨place, token, ?_⟩
      rw [hcount htask nofun ((h.course htask).staff_done rfl).2, ← hsame rfl]
      exact ⟨hnext, htext⟩
    · obtain ⟨place, token, ⟨failures, htask⟩, hnext, htext⟩ := h.reported_step hpaths hpath hnow
      refine ⟨place, token, ?_⟩
      rw [hcount htask nofun (h.course htask).joined_done]
      exact ⟨hnext, htext⟩

end IsManned

theorem stepAll_isManned (config : Config) (moves : List Move) :
    ((ofConfig config).stepAll moves).relay.IsManned
      (fun place => (ofConfig config).startedBy place moves)
      ((ofConfig config).stepAll moves).occurrences := by
  induction moves using List.reverseRecOn with
  | nil => exact ⟨fun _ _ => rfl, nofun, nofun, nofun, nofun⟩
  | append_singleton moves move ih =>
      have hpaths := (stepAll_isSound (ofConfig_isSound config) moves).hasOwnPaths
      simp only [startedBy_append_singleton, stepAll_append_singleton]
      exact ih.step hpaths move

/-! ## Groups that have nobody left to wait for -/

/-- A group that is looked at joins one of its staff if one is done. -/
theorem step_joins {token : Token} {children : List Nat} {failures child : Nat}
    (htask : relay.tasks[place]? = some ⟨.group group, token, .joining children failures⟩)
    (hfind : children.find? (fun child => (relay.phaseOf child).isDone) = some child) :
    ∃ noted, (relay.step (.poll place)).relay =
      relay.setPhase place (.joining (children.erase child) noted) := by
  have hpoll : relay.step (.poll place) = relay.join place group children failures child := by
    simp [Relay.step, poll?, htask, advanceGroup?, hfind]
  rw [hpoll]
  unfold Relay.join
  dsimp only
  split <;> exact ⟨_, rfl⟩

theorem step_ends {token : Token} {failures : Nat}
    (htask : relay.tasks[place]? = some ⟨.group group, token, .joining [] failures⟩) :
    ∃ failure, (relay.step (.poll place)).relay.tasks[place]? =
      some ⟨.group group, token, .done failure⟩ := by
  have hpoll : relay.step (.poll place) = relay.endGroup place group failures := by
    simp [Relay.step, poll?, htask, advanceGroup?]
  rw [hpoll, tasks_endGroup, getElem?_setPhase_self, htask]
  exact ⟨_, rfl⟩

/-- When all of its staff are done, a group has joined them if it is looked at once for each of
those that are still to be joined. Nothing else happens meanwhile. -/
theorem joins_of_done {token : Token} {children : List Nat} {failures : Nat}
    (htask : relay.tasks[place]? = some ⟨.group group, token, .joining children failures⟩)
    (hdone : ∀ child ∈ children, (relay.phaseOf child).isDone = true) :
    (∃ noted, (relay.stepAll (List.replicate children.length (.poll place))).relay.tasks[place]? =
        some ⟨.group group, token, .joining [] noted⟩) ∧
      (relay.stepAll (List.replicate children.length (.poll place))).relay.servers =
        relay.servers := by
  induction children generalizing relay failures with
  | nil => exact ⟨⟨failures, htask⟩, rfl⟩
  | cons first rest ih =>
      have hfirst : (relay.phaseOf first).isDone = true := hdone first List.mem_cons_self
      obtain ⟨noted, hstep⟩ := step_joins htask (List.find?_cons_of_pos hfirst)
      rw [List.length_cons, List.replicate_succ, stepAll_cons]
      have hnext : (relay.step (.poll place)).relay.tasks[place]? =
          some ⟨.group group, token, .joining rest noted⟩ := by
        rw [hstep, getElem?_setPhase_self, htask, List.erase_cons_head]
        rfl
      have hrest : ∀ child ∈ rest,
          ((relay.step (.poll place)).relay.phaseOf child).isDone = true := by
        intro child hchild
        have hother : child ≠ place := by
          rintro rfl
          have hnot := hdone child (List.mem_cons_of_mem first hchild)
          rw [phaseOf_eq htask] at hnot
          cases hnot
        rw [hstep, phaseOf, getElem?_setPhase_of_ne _ hother]
        exact hdone child (List.mem_cons_of_mem first hchild)
      obtain ⟨hjoined, hservers⟩ := ih hnext hrest
      refine ⟨hjoined, hservers.trans ?_⟩
      rw [hstep]
      rfl

/-- When all of its staff are done, a group comes to its end if it is looked at once for each of
those that are still to be joined, and once more. -/
theorem returns_of_done {token : Token} {children : List Nat} {failures : Nat}
    (htask : relay.tasks[place]? = some ⟨.group group, token, .joining children failures⟩)
    (hdone : ∀ child ∈ children, (relay.phaseOf child).isDone = true) :
    ∃ failure,
      (relay.stepAll (List.replicate (children.length + 1) (.poll place))).relay.tasks[place]? =
        some ⟨.group group, token, .done failure⟩ := by
  obtain ⟨⟨noted, hjoined⟩, -⟩ := joins_of_done htask hdone
  rw [List.replicate_succ', stepAll_append_singleton]
  exact step_ends hjoined

end Relay

end LiveRelay
