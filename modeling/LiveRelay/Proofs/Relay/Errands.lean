import LiveRelay.Proofs.Relay.Chronicle
import LiveRelay.Proofs.Relay.Closing

/-! # What is done when a task is looked at

Tasks go on only when they are looked at. `Errand` lists what the one that is looked at can do,
and `poll_errand` says that it does nothing else. No other move brings a task any further, or
reports that a group has stopped (`step_grows`).
-/

namespace LiveRelay

/-- Whether a task has come to its end with a failure. -/
def TaskPhase.hasFailed : TaskPhase → Bool
  | done (some _) => true
  | _ => false

theorem mem_kindsOf {path : ComponentPath} {kind : EventKind} {seen : List Occurrence} :
    kind ∈ kindsOf path seen ↔ .event ⟨path, kind⟩ ∈ seen := by
  simp only [kindsOf, List.mem_filterMap]
  constructor
  · rintro ⟨occurrence, hmem, hkind⟩
    cases occurrence with
    | event event =>
        simp only [Occurrence.kind?] at hkind
        split_ifs at hkind with hpath
        subst hpath
        obtain rfl := Option.some.inj hkind
        exact hmem
    | _ => cases hkind
  · intro hmem
    exact ⟨_, hmem, by simp [Occurrence.kind?]⟩

namespace Relay

variable {relay : Relay} {place : Nat} {change : Change}

/-- Whether the run that a task has done has failed. -/
def hasFailed (relay : Relay) (task : Nat) : Bool := (relay.phaseOf task).hasFailed

/-- No group reports that it has stopped. -/
def IsQuiet (relay : Relay) (occurrences : List Occurrence) : Prop :=
  ∀ group path text, relay.pathOf? group = some path →
    Occurrence.event ⟨path, .stopped text⟩ ∉ occurrences

/-- What the task at `place` does when it is looked at. -/
inductive Errand (relay : Relay) (place : Nat) (change : Change) : Prop
  | waits (htasks : change.relay.tasks = relay.tasks) (hquiet : relay.IsQuiet change.occurrences)
  /-- It brings its connection further, or has brought it to its end. -/
  | drives {id : ConnectionId} {token : Token} {before after : TaskPhase}
      (htask : relay.tasks[place]? = some ⟨.connection id, token, before⟩)
      (htasks : change.relay.tasks = (relay.setPhase place after).tasks)
      (hquiet : relay.IsQuiet change.occurrences)
  /-- There is no such group, or the relay has been run before. -/
  | declines {group : Group} {token : Token} {failure : Option TaskFailure}
      (htask : relay.tasks[place]? = some ⟨.group group, token, .ready⟩)
      (hfailure : relay.pathOf? group = none ∧ failure = none ∨
        group = .relay ∧ failure = some (.relay .alreadyRunning))
      (htasks : change.relay.tasks = (relay.setPhase place (.done failure)).tasks)
      (hquiet : relay.IsQuiet change.occurrences)
  | opens {group : Group} {token : Token} {path : ComponentPath}
      (htask : relay.tasks[place]? = some ⟨.group group, token, .ready⟩)
      (hpath : relay.pathOf? group = some path)
      (htasks : change.relay.tasks = (relay.opened place group token).tasks)
      (hquiet : relay.IsQuiet change.occurrences)
  | joins {group : Group} {token : Token} {children : List Nat} {failures child : Nat}
      (htask : relay.tasks[place]? = some ⟨.group group, token, .joining children failures⟩)
      (hchild : child ∈ children) (hdone : (relay.phaseOf child).isDone = true)
      (htasks : change.relay.tasks = (relay.setPhase place
        (.joining (children.erase child) (failures + (relay.hasFailed child).toNat))).tasks)
      (hquiet : relay.IsQuiet change.occurrences)
  | ends {group : Group} {token : Token} {failures : Nat} {path : ComponentPath}
      (htask : relay.tasks[place]? = some ⟨.group group, token, .joining [] failures⟩)
      (hpath : path = (relay.pathOf? group).getD Relay.path)
      (htasks : change.relay.tasks = (relay.setPhase place
        (.done ((groupFailure? group path failures).map .relay))).tasks)
      (hseen : ∀ event, .event event ∈ change.occurrences ↔
        event = ⟨path, .stopped (stopText? group path failures)⟩)

/-! ## Quiet occurrences -/

theorem isQuiet_nil : relay.IsQuiet [] := fun _ _ _ _ => List.not_mem_nil

theorem isQuiet_notes {occurrences : List Occurrence}
    (h : ∀ occurrence ∈ occurrences, occurrence.isNote = true) : relay.IsQuiet occurrences := by
  intro group path text _ hmem
  cases h _ hmem

/-- What a connection does is not reported under the path of a group. -/
theorem isQuiet_act (hpaths : relay.HasOwnPaths) (id : ConnectionId) (act : Act) :
    relay.IsQuiet (relay.act id act).occurrences := by
  intro group path text hpath hmem
  have hother : relay.componentPath? (.connection id) ≠ some path := by
    intro hsame
    cases hpaths (.connection id) (.group group) path hsame hpath
  rw [← mem_kindsOf, kindsOf_act hother act] at hmem
  cases hmem

theorem isQuiet_close (component : Component) :
    relay.IsQuiet (relay.close component).occurrences := by
  intro group path text _ hmem
  obtain ⟨_, _, hclosure⟩ := close_isClosure relay component _ hmem
  cases hclosure

theorem isQuiet_stop (reason : String) : relay.IsQuiet (relay.stop reason).occurrences := by
  apply isQuiet_notes
  unfold stop
  split_ifs <;> simp [Occurrence.isNote]

theorem tasks_stop (reason : String) : (relay.stop reason).relay.tasks = relay.tasks := by
  unfold stop
  split_ifs
  · rfl
  · exact tasks_cancel _ _

/-! ## The errand of a task -/

theorem tasks_setPhase_congr {before after : Relay} (h : after.tasks = before.tasks)
    (place : Nat) (phase : TaskPhase) :
    (after.setPhase place phase).tasks = (before.setPhase place phase).tasks := by
  simp only [setPhase, h]

theorem beginConnection_errand (hpaths : relay.HasOwnPaths) {id : ConnectionId} {token : Token}
    (htask : relay.tasks[place]? = some ⟨.connection id, token, .ready⟩) :
    relay.Errand place (relay.beginConnection place id token) := by
  by_cases hfirst : ∃ connection, relay.connection? id = some connection ∧
      connection.life = .unstarted
  · obtain ⟨connection, hconnection, hlife⟩ := hfirst
    rw [beginConnection_eq_begun hconnection hlife]
    exact .drives htask (tasks_setPhase_congr (tasks_act _ _ _) _ _) (isQuiet_act hpaths id _)
  · rw [beginConnection_eq_done fun connection hconnection hlife =>
      hfirst ⟨connection, hconnection, hlife⟩]
    exact .drives htask rfl isQuiet_nil

theorem beginGroup_errand {group : Group} {token : Token}
    (htask : relay.tasks[place]? = some ⟨.group group, token, .ready⟩) :
    relay.Errand place (relay.beginGroup place group token) := by
  unfold beginGroup
  split
  next hpath => exact .declines htask (.inl ⟨hpath, rfl⟩) rfl isQuiet_nil
  next path hpath =>
    refine .opens htask hpath rfl ?_
    intro other above text _ hmem
    simp at hmem

theorem beginRelay_errand {token : Token}
    (htask : relay.tasks[place]? = some ⟨.group .relay, token, .ready⟩) :
    relay.Errand place (relay.beginRelay place token) := by
  unfold beginRelay
  split_ifs with hrun
  · exact .declines htask (.inr ⟨rfl, rfl⟩) rfl isQuiet_nil
  · -- The deadline, if there is one, is only a note.
    have hopens : ∀ notes : List Occurrence,
        (∀ occurrence ∈ notes, occurrence.isNote = true) →
        relay.Errand place
          ⟨({ relay with hasRun := true }.beginGroup place .relay token).relay,
            ({ relay with hasRun := true }.beginGroup place .relay token).occurrences ++ notes⟩ := by
      intro notes hnotes
      refine .opens htask rfl rfl ?_
      intro group path text hpath hmem
      rcases List.mem_append.mp hmem with hbegins | hnote
      · simp [beginGroup, pathOf?] at hbegins
      · exact isQuiet_notes hnotes group path text hpath hnote
    simp only []
    split
    next =>
      have hplain := hopens [] (List.forall_mem_nil _)
      rwa [List.append_nil] at hplain
    next span _ =>
      apply hopens
      simp [Occurrence.isNote]

theorem tasks_endGroup (relay : Relay) (place : Nat) (group : Group) (failures : Nat) :
    (relay.endGroup place group failures).relay.tasks = (relay.setPhase place
      (.done ((groupFailure? group ((relay.pathOf? group).getD Relay.path) failures).map
        .relay))).tasks := by
  unfold endGroup
  apply tasks_setPhase_congr
  cases group with
  | relay => exact tasks_cancel _ _
  | server => rfl
  | endpoint => exact tasks_closeFanOut _ _ _

theorem endGroup_errand {group : Group} {token : Token} {failures : Nat}
    (htask : relay.tasks[place]? = some ⟨.group group, token, .joining [] failures⟩) :
    relay.Errand place (relay.endGroup place group failures) := by
  apply Errand.ends htask rfl (tasks_endGroup relay place group failures)
  intro event
  simp [endGroup]

theorem join_errand {group : Group} {token : Token} {children : List Nat} {failures child : Nat}
    (htask : relay.tasks[place]? = some ⟨.group group, token, .joining children failures⟩)
    (hchild : child ∈ children) (hdone : (relay.phaseOf child).isDone = true) :
    relay.Errand place (relay.join place group children failures child) := by
  refine .joins htask hchild hdone ?_ ?_
  · unfold join hasFailed
    cases hphase : relay.phaseOf child with
    | done failure => cases failure <;> rfl
    | _ => simp [hphase, TaskPhase.isDone] at hdone
  · apply isQuiet_notes
    unfold join
    simp only []
    split <;> simp [Occurrence.isNote]

theorem advanceGroup?_errand {group : Group} {token : Token} {children : List Nat}
    {failures : Nat}
    (htask : relay.tasks[place]? = some ⟨.group group, token, .joining children failures⟩)
    (h : relay.advanceGroup? place group token children failures = some change) :
    relay.Errand place change := by
  unfold advanceGroup? at h
  split at h
  next child hfind =>
    obtain rfl := Option.some.inj h
    have hdone : (relay.phaseOf child).isDone = true := by
      simpa using List.find?_some hfind
    exact join_errand htask (List.mem_of_find?_eq_some hfind) hdone
  next =>
    split_ifs at h with hempty
    · obtain rfl := Option.some.inj h
      obtain rfl : children = [] := List.isEmpty_iff.mp hempty
      exact endGroup_errand htask
    · obtain rfl := Option.some.inj h
      exact .waits (tasks_stop _) (isQuiet_stop _)

/-- Looking at a task comes to nothing but its errand. -/
theorem poll_errand (hpaths : relay.HasOwnPaths) (place : Nat) :
    relay.Errand place (relay.step (.poll place)) := by
  simp only [step]
  cases hpoll : relay.poll? place with
  | none => exact .waits rfl isQuiet_nil
  | some change =>
      obtain ⟨⟨component, token, phase⟩, htask, hnext⟩ := Option.bind_eq_some_iff.mp hpoll
      rw [Option.getD_some]
      simp only [] at hnext
      split at hnext
      next =>
        obtain rfl := Option.some.inj hnext
        unfold begin
        split
        next => exact beginConnection_errand hpaths htask
        next => exact beginRelay_errand htask
        next => exact beginGroup_errand htask
      next => exact advanceGroup?_errand htask hnext
      next id _ =>
        obtain ⟨connection, -, hlife⟩ := Option.bind_eq_some_iff.mp hnext
        split at hlife
        next =>
          obtain rfl := Option.some.inj hlife
          exact .drives htask rfl isQuiet_nil
        next => cases hlife
      next => cases hnext

/-! ## Moves that look at no task -/

theorem tasks_close (relay : Relay) (component : Component) :
    (relay.close component).relay.tasks = relay.tasks := by
  apply close_keeps (motive := fun later => later.tasks = relay.tasks)
  · exact fun _ later hlater => (tasks_cancel later _).trans hlater
  · exact fun later _ _ _ hlater => (tasks_closeFanOut later _ _).trans hlater
  · exact fun later _ _ hlater => (tasks_act later _ _).trans hlater
  · rfl

/-- A move that looks at no task leaves all tasks where they are. One may be added to them. -/
theorem step_grows (hpaths : relay.HasOwnPaths) {move : Move} (h : ∀ place, move ≠ .poll place) :
    (∃ added : List Task, (relay.step move).relay.tasks = relay.tasks ++ added ∧
      ∀ task ∈ added, task.phase = .ready) ∧ relay.IsQuiet (relay.step move).occurrences := by
  have hsame : (relay.step move).relay.tasks = relay.tasks →
      ∃ added : List Task, (relay.step move).relay.tasks = relay.tasks ++ added ∧
        ∀ task ∈ added, task.phase = .ready :=
    fun htasks => ⟨[], htasks.trans (List.append_nil _).symm, List.forall_mem_nil _⟩
  cases move with
  | poll place => exact absurd rfl (h place)
  | run component token => exact ⟨⟨[⟨component, token, .ready⟩], rfl, by simp⟩, isQuiet_nil⟩
  | cancel token => exact ⟨hsame (tasks_cancel _ _), isQuiet_nil⟩
  | close component => exact ⟨hsame (tasks_close _ _), isQuiet_close component⟩
  | expire place =>
      have hexpires : (relay.expire place).relay.tasks = relay.tasks ∧
          relay.IsQuiet (relay.expire place).occurrences := by
        unfold expire
        split
        · exact ⟨tasks_stop _, isQuiet_stop _⟩
        · exact ⟨rfl, isQuiet_nil⟩
      exact ⟨hsame hexpires.1, hexpires.2⟩
  | signal id signal =>
      have hacts : (relay.signal id signal).relay.tasks = relay.tasks ∧
          relay.IsQuiet (relay.signal id signal).occurrences := by
        cases hconnection : relay.connection? id with
        | none =>
            rw [Relay.signal, stepConnection_of_none hconnection]
            exact ⟨rfl, isQuiet_nil⟩
        | some connection =>
            rw [signal_eq_act hconnection]
            exact ⟨tasks_act _ _ _, isQuiet_act hpaths id _⟩
      exact ⟨hsame hacts.1, hacts.2⟩

/-- A task that is not looked at is where it was, unless it has only just been started. -/
theorem task_of_step (hpaths : relay.HasOwnPaths) {move : Move} (h : move ≠ .poll place)
    {later : Task} (hlater : (relay.step move).relay.tasks[place]? = some later) :
    relay.tasks[place]? = some later ∨ relay.tasks.length ≤ place ∧ later.phase = .ready := by
  by_cases hpoll : ∃ actor, move = .poll actor
  · obtain ⟨actor, rfl⟩ := hpoll
    have hplace : place ≠ actor := fun hsame => h (congrArg Move.poll hsame.symm)
    have hsets : ∀ phase : TaskPhase,
        (relay.step (.poll actor)).relay.tasks = (relay.setPhase actor phase).tasks →
        relay.tasks[place]? = some later := by
      intro phase htasks
      rwa [htasks, getElem?_setPhase_of_ne _ hplace] at hlater
    cases poll_errand hpaths actor with
    | waits htasks => exact .inl (by rwa [htasks] at hlater)
    | drives _ htasks => exact .inl (hsets _ htasks)
    | declines _ _ htasks => exact .inl (hsets _ htasks)
    | joins _ _ _ htasks => exact .inl (hsets _ htasks)
    | ends _ _ htasks => exact .inl (hsets _ htasks)
    | opens htask _ htasks =>
        rw [htasks] at hlater
        rcases getElem?_opened_cases htask hlater with ⟨hsame, -⟩ | ⟨-, hold⟩ |
          ⟨index, rfl, -, hready⟩
        · exact absurd hsame hplace
        · exact .inl hold
        · exact .inr ⟨Nat.le_add_right .., hready⟩
  · obtain ⟨⟨added, htasks, hready⟩, -⟩ :=
      step_grows hpaths fun actor hactor => hpoll ⟨actor, hactor⟩
    rw [htasks] at hlater
    rcases Nat.lt_or_ge place relay.tasks.length with hlt | hnew
    · rw [List.getElem?_append_left hlt] at hlater
      exact .inl hlater
    · rw [List.getElem?_append_right hnew] at hlater
      exact .inr ⟨hnew, hready later (List.mem_of_getElem? hlater)⟩

end Relay

end LiveRelay
