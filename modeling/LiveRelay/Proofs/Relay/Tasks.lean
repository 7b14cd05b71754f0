import LiveRelay.Proofs.Relay.Projection

/-! # How the tasks of a relay go on

A task is never taken away, and what it runs never changes. `Advances` lists how far a deed
can bring it. A connection that runs is driven by a task (`stepAll_isDriven`).
-/

namespace LiveRelay

namespace Relay

variable {relay : Relay} {move : Move} {change : Change}

/-! ## The tasks of a group that has begun -/

section Opened

variable {place : Nat} {group : Group} {token : Token}

theorem getElem?_opened_self (htask : relay.tasks[place]? = some ⟨.group group, token, .ready⟩) :
    (relay.opened place group token).tasks[place]? = some ⟨.group group, token,
      .joining (List.range' relay.tasks.length (relay.childrenOf group).length) 0⟩ := by
  obtain ⟨hlt, hget⟩ := List.getElem?_eq_some_iff.mp htask
  simp only [opened, getElem?_setPhase_self, spawn]
  rw [List.getElem?_append_left hlt, htask]
  rfl

theorem getElem?_opened_old {other : Nat} (hother : other ≠ place)
    (hlt : other < relay.tasks.length) :
    (relay.opened place group token).tasks[other]? = relay.tasks[other]? := by
  simp only [opened, getElem?_setPhase_of_ne _ hother, spawn]
  exact List.getElem?_append_left hlt

/-- The tasks of the parts come behind those that were there. -/
theorem getElem?_opened_new (htask : relay.tasks[place]? = some ⟨.group group, token, .ready⟩)
    (index : Nat) :
    (relay.opened place group token).tasks[relay.tasks.length + index]? =
      (relay.childrenOf group)[index]?.map fun component =>
        ⟨component, if group = .relay then .relay else token, .ready⟩ := by
  have hlt := (List.getElem?_eq_some_iff.mp htask).1
  have hother : relay.tasks.length + index ≠ place := by omega
  simp only [opened, getElem?_setPhase_of_ne _ hother, spawn]
  rw [List.getElem?_append_right (Nat.le_add_right ..), Nat.add_sub_cancel_left,
    List.getElem?_map]
  rfl

/-- A task of the relay when a group has begun is that of the group, another that was there
before, or that of a part of the group. -/
theorem getElem?_opened_cases (htask : relay.tasks[place]? = some ⟨.group group, token, .ready⟩)
    {other : Nat} {later : Task}
    (hlater : (relay.opened place group token).tasks[other]? = some later) :
    (other = place ∧ later = ⟨.group group, token,
      .joining (List.range' relay.tasks.length (relay.childrenOf group).length) 0⟩) ∨
    (other ≠ place ∧ relay.tasks[other]? = some later) ∨
    ∃ index, other = relay.tasks.length + index ∧
      (relay.childrenOf group)[index]? = some later.component ∧ later.phase = .ready := by
  by_cases hplace : other = place
  · subst hplace
    rw [getElem?_opened_self htask] at hlater
    exact .inl ⟨rfl, (Option.some.inj hlater).symm⟩
  · by_cases hold : other < relay.tasks.length
    · rw [getElem?_opened_old hplace hold] at hlater
      exact .inr (.inl ⟨hplace, hlater⟩)
    · obtain ⟨index, rfl⟩ := Nat.exists_eq_add_of_le (Nat.le_of_not_lt hold)
      rw [getElem?_opened_new htask] at hlater
      obtain ⟨component, hcomponent, rfl⟩ := Option.map_eq_some_iff.mp hlater
      exact .inr (.inr ⟨index, rfl, hcomponent, rfl⟩)

end Opened

/-! ## What becomes of a task -/

/-- A task goes on to this phase in a deed of which this is seen. -/
inductive Advances (relay : Relay) (occurrences : List Occurrence) : Task → TaskPhase → Prop
  | settles {task : Task} {phase : TaskPhase} (h : relay.Settles task phase) :
      Advances relay occurrences task phase
  | begins {id : ConnectionId} {token : Token} {connection : Connection}
      (hconnection : relay.connection? id = some connection)
      (hlife : connection.life = .unstarted) :
      Advances relay occurrences ⟨.connection id, token, .ready⟩ .driving
  | opens {group : Group} {token : Token} (hfirst : group = .relay → relay.hasRun = false) :
      Advances relay occurrences ⟨.group group, token, .ready⟩
        (.joining (List.range' relay.tasks.length (relay.childrenOf group).length) 0)
  | ends {place : Nat} {group : Group} {token : Token} {failures : Nat}
      (hstopped : relay.HasStopped group)
      (hshows : occurrences = (relay.ended place group failures).occurrences) :
      Advances relay occurrences ⟨.group group, token, .joining [] failures⟩
        (.done ((groupFailure? group ((relay.pathOf? group).getD path) failures).map .relay))

theorem getElem?_setPhase_cases {place other : Nat} {task before : Task} (phase : TaskPhase)
    (htask : relay.tasks[place]? = some task) (hbefore : relay.tasks[other]? = some before) :
    (relay.setPhase place phase).tasks[other]? = some before ∨
      before = task ∧
        (relay.setPhase place phase).tasks[other]? = some { before with phase := phase } := by
  by_cases hother : other = place
  · subst hother
    rw [htask] at hbefore
    obtain rfl := Option.some.inj hbefore
    refine .inr ⟨rfl, ?_⟩
    rw [getElem?_setPhase_self, htask]
    rfl
  · refine .inl ?_
    rw [getElem?_setPhase_of_ne _ hother, hbefore]

/-- A task is still there after a deed, and it is where it was or has gone on. -/
theorem Deed.task (h : Deed relay move change) {place : Nat} {task : Task}
    (htask : relay.tasks[place]? = some task) :
    change.relay.tasks[place]? = some task ∨
      ∃ phase, relay.Advances change.occurrences task phase ∧
      change.relay.tasks[place]? = some { task with phase := phase } := by
  have hlt := (List.getElem?_eq_some_iff.mp htask).1
  cases h with
  | notes => exact .inl htask
  | cancels token => exact .inl (by rwa [tasks_cancel])
  | closesFanOut => exact .inl (by rwa [tasks_closeFanOut])
  | signals => exact .inl (by rwa [tasks_act])
  | closes => exact .inl (by rwa [tasks_act])
  | runs component token =>
      refine .inl ?_
      simp only [spawn]
      rwa [List.getElem?_append_left hlt]
  | settles hactor hsettles =>
      rcases getElem?_setPhase_cases _ hactor htask with hsame | ⟨rfl, hnext⟩
      · exact .inl hsame
      · exact .inr ⟨_, .settles hsettles, hnext⟩
  | @begins _ actor id token connection hactor hconnection hlife =>
      have hact : (relay.act id (.run token (relay.isCancelled token))).relay.tasks[actor]? =
          some ⟨.connection id, token, .ready⟩ := by rwa [tasks_act]
      rw [← tasks_act relay id (.run token (relay.isCancelled token))] at htask
      rcases getElem?_setPhase_cases _ hact htask with hsame | ⟨rfl, hnext⟩
      · exact .inl hsame
      · exact .inr ⟨_, .begins hconnection hlife, hnext⟩
  | @opens _ actor group token path hactor hpath hfirst =>
      by_cases hplace : place = actor
      · subst hplace
        rw [hactor] at htask
        obtain rfl := Option.some.inj htask
        exact .inr ⟨_, .opens hfirst, getElem?_opened_self hactor⟩
      · exact .inl ((getElem?_opened_old hplace hlt).trans htask)
  | ends hactor hstopped =>
      rcases getElem?_setPhase_cases _ hactor htask with hsame | ⟨rfl, hnext⟩
      · exact .inl hsame
      · exact .inr ⟨_, .ends hstopped rfl, hnext⟩

/-- A task that a deed adds has not been looked at. -/
theorem Deed.ready_of_new (h : Deed relay move change) {place : Nat} {later : Task}
    (hnew : relay.tasks.length ≤ place) (hlater : change.relay.tasks[place]? = some later) :
    later.phase = .ready := by
  have hlt := (List.getElem?_eq_some_iff.mp hlater).1
  have hold : change.relay.tasks.length = relay.tasks.length → later.phase = .ready := by
    intro hlength
    omega
  cases h with
  | notes => exact hold rfl
  | cancels => exact hold (congrArg _ (tasks_cancel _ _))
  | closesFanOut => exact hold (congrArg _ (tasks_closeFanOut _ _ _))
  | signals => exact hold (congrArg _ (tasks_act _ _ _))
  | closes => exact hold (congrArg _ (tasks_act _ _ _))
  | runs component token =>
      simp only [spawn] at hlater
      rw [List.getElem?_append_right hnew] at hlater
      rw [List.mem_singleton.mp (List.mem_of_getElem? hlater)]
  | settles => exact hold (List.length_modify ..)
  | begins =>
      refine hold ((List.length_modify ..).trans ?_)
      rw [tasks_act]
  | opens htask =>
      rcases getElem?_opened_cases htask hlater with ⟨rfl, -⟩ | ⟨-, hsame⟩ | ⟨_, -, -, hready⟩
      · exact absurd (List.getElem?_eq_some_iff.mp htask).1 (Nat.not_lt.mpr hnew)
      · exact absurd (List.getElem?_eq_some_iff.mp hsame).1 (Nat.not_lt.mpr hnew)
      · exact hready
  | ends => exact hold (List.length_modify ..)

/-- A task that has been looked at was there before the deed, and was where it is or has gone on
to there. -/
theorem Deed.task_before (h : Deed relay move change) {place : Nat} {later : Task}
    (hlater : change.relay.tasks[place]? = some later) (hphase : later.phase ≠ .ready) :
    relay.tasks[place]? = some later ∨ ∃ task, relay.tasks[place]? = some task ∧
      relay.Advances change.occurrences task later.phase ∧
      later = { task with phase := later.phase } := by
  rcases Nat.lt_or_ge place relay.tasks.length with hlt | hnew
  · have htask := List.getElem?_eq_getElem hlt
    rcases h.task htask with hsame | ⟨phase, hadvances, hnext⟩
    · rw [hlater] at hsame
      obtain rfl := Option.some.inj hsame
      exact .inl htask
    · rw [hlater] at hnext
      obtain rfl := Option.some.inj hnext
      exact .inr ⟨_, htask, hadvances, rfl⟩
  · exact absurd (h.ready_of_new hnew hlater) hphase

/-! ## Running connections are driven -/

/-- Every connection that runs is driven by a task that watches the token of its run. -/
def IsDriven (relay : Relay) : Prop :=
  ∀ id connection run await, relay.connection? id = some connection →
    connection.life = .running run await →
    ∃ place : Nat, relay.tasks[place]? = some ⟨.connection id, run.token, .driving⟩

theorem Deed.isDriven (h : Deed relay move change) (hpaths : relay.HasOwnPaths)
    (hdriven : relay.IsDriven) : change.relay.IsDriven := by
  intro id later run await hlater hrunning
  obtain ⟨connection, hconnection, hcases⟩ := h.connection_after hpaths hlater
  -- The task that drove the connection goes on only when the run has ended.
  have hstays : ∀ {old : Run} {await : Await}, connection.life = .running old await →
      old.token = run.token →
      ∃ place : Nat, change.relay.tasks[place]? =
        some ⟨.connection id, run.token, .driving⟩ := by
    intro old await hlife htoken
    obtain ⟨place, htask⟩ := hdriven id connection old await hconnection hlife
    rw [htoken] at htask
    refine ⟨place, ?_⟩
    rcases h.task htask with hsame | ⟨phase, hadvances, -⟩
    · exact hsame
    · cases hadvances with
      | settles hsettles =>
          cases hsettles with
          | arrives hother hended =>
              rw [hconnection] at hother
              obtain rfl := Option.some.inj hother
              cases hlife.symm.trans hended
  rcases hcases with ⟨fanOut, act, hlets, -, rfl⟩ | ⟨-, rfl⟩
  · have hpassage := (connection.act_passes fanOut act).passage
    rw [hrunning] at hpassage
    have hbegins : ∀ {token : Token} {cancelled : Bool}, act = .run token cancelled →
        ∃ place : Nat, change.relay.tasks[place]? = some ⟨.connection id, token, .driving⟩ := by
      rintro token cancelled rfl
      cases hlets with
      | begins _ _ hdriving => exact ⟨_, hdriving⟩
    generalize hlife : connection.life = life at hpassage
    generalize (connection.act fanOut act).marks = marks at hpassage
    cases hpassage with
    | rests _ _ => exact hstays hlife rfl
    | goesOn htoken _ => exact hstays hlife htoken.symm
    | begins htoken _ => exact htoken ▸ hbegins rfl
  · exact hstays hrunning rfl

theorem life_ofConfig {config : Config} {id : ConnectionId} {connection : Connection}
    (h : (ofConfig config).connection? id = some connection) : connection.life = .unstarted := by
  obtain ⟨settings, framePath, above, -, -, rfl⟩ := connection?_ofConfig h
  rfl

theorem stepAll_isDriven (config : Config) (moves : List Move) :
    ((ofConfig config).stepAll moves).relay.IsDriven := by
  have hbegin : (ofConfig config).IsDriven := by
    intro id connection run await hconnection hrunning
    rw [life_ofConfig hconnection] at hrunning
    cases hrunning
  exact (ofConfig_isSound config).stepAll_induction (motive := fun relay _ => relay.IsDriven) hbegin
    fun hsound hdriven hdeed => hdeed.isDriven hsound.hasOwnPaths hdriven

end Relay

end LiveRelay
