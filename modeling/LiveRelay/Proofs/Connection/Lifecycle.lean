import LiveRelay.Proofs.Connection.History

/-! # The life of a connection

The changes of state that a connection reports are one path through its states. `Edge`
lists the edges it can take and what has to be the case for them, and
`history_isLawful` says that no other edge is taken, whatever happens to the connection.
-/

namespace LiveRelay

/-- The changes of state lead from `source` to `target`, each from where the last one went. -/
def IsPath : (source : ConnectionState) → List Transition → (target : ConnectionState) → Prop
  | source, [], target => source = target
  | source, change :: changes, target =>
      change.source = source ∧ IsPath change.target changes target

theorem isPath_append {source target : ConnectionState} {first second : List Transition} :
    IsPath source (first ++ second) target ↔
      ∃ middle, IsPath source first middle ∧ IsPath middle second target := by
  induction first generalizing source with
  | nil => simp [IsPath]
  | cons change first ih => simp [IsPath, ih, and_assoc]

/-- Each change begins where the one before it ended. -/
theorem IsPath.source_eq {source target : ConnectionState} {first last : List Transition}
    {change next : Transition} (h : IsPath source (first ++ change :: next :: last) target) :
    next.source = change.target := by
  obtain ⟨middle, -, hrest⟩ := isPath_append.mp h
  exact hrest.2.1

/-- The retries of a running connection are used up. -/
def Connection.IsSpent (connection : Connection) : Prop :=
  ∃ run await, connection.life = .running run await ∧ run.budget.consume? = none

/-- After these earlier steps, a step can take the connection from one state to another. -/
inductive Edge (earlier : List Step) (step : Step) : ConnectionState → ConnectionState → Prop
  | begin : Edge earlier step .idle .establishing
  /-- It is closed before it is run. -/
  | closeUnrun (hclose : step.act = .close)
      (hunrun : ∀ before ∈ earlier, before.act.isRun = false) : Edge earlier step .idle .closed
  | link : Edge earlier step .establishing .active
  | failAttempt : Edge earlier step .establishing .reconnecting
  | loseLink (h : step.before.isSingleShot = false) : Edge earlier step .active .reconnecting
  /-- The host is a single-shot one, and its link has ended. -/
  | endSingleShot (hsingle : step.before.isSingleShot = true) {failure : ConnectionError}
      (hends : step.LosesLink failure) : Edge earlier step .active .closed
  /-- The endpoint has closed the queue of the sink. -/
  | endQueue (h : step.before.QueueClosed step.fanOut) : Edge earlier step .active .closed
  | retry : Edge earlier step .reconnecting .establishing
  | giveUp (h : step.before.IsSpent) : Edge earlier step .reconnecting .closed
  /-- The run has been cancelled. -/
  | drain {source : ConnectionState}
      (hsource : source ∈ [.establishing, .active, .reconnecting])
      (h : step.act.cancelled = true) : Edge earlier step source .draining
  | drained : Edge earlier step .draining .closed

namespace Edge

variable {earlier : List Step} {step : Step} {source target : ConnectionState}

/-- Nothing leads out of the closed state. -/
theorem source_ne_closed (h : Edge earlier step source target) : source ≠ .closed := by
  rintro rfl
  cases h with
  | drain hsource h => simp at hsource

theorem target_ne_idle (h : Edge earlier step source target) : target ≠ .idle := by
  rintro rfl
  cases h

theorem source_of_establishing (h : Edge earlier step source .establishing) :
    source = .idle ∨ source = .reconnecting := by
  cases h with
  | begin => exact .inl rfl
  | retry => exact .inr rfl

theorem target_of_idle (h : Edge earlier step .idle target) :
    target = .establishing ∨ target = .closed := by
  cases h with
  | begin => exact .inl rfl
  | closeUnrun => exact .inr rfl
  | drain hsource h => simp at hsource

theorem target_of_reconnecting (h : Edge earlier step .reconnecting target) :
    target = .establishing ∨ target = .draining ∨ target = .closed := by
  cases h with
  | retry => exact .inl rfl
  | drain => exact .inr (.inl rfl)
  | giveUp => exact .inr (.inr rfl)

theorem target_of_draining (h : Edge earlier step .draining target) : target = .closed := by
  cases h with
  | drain hsource => simp at hsource
  | drained => rfl

theorem cancelled_of_draining (h : Edge earlier step source .draining) :
    step.act.cancelled = true := by
  cases h with
  | drain hsource h => exact h

end Edge

/-- The change carries the failure that belongs to it. Reconnecting always has one, closing
may have one, and nothing else does. -/
def Transition.FailureFits (change : Transition) : Prop :=
  match change.target with
  | .reconnecting => ∃ failure, change.failure = some failure ∧
      (change.source = .establishing → failure.isEstablishFailure = true) ∧
      (change.source = .active → failure.isLinkFailure = true)
  | .closed => True
  | _ => change.failure = none

/-- What these steps of a connection report is lawful. -/
structure IsLawful (steps : List Step) : Prop where
  isPath : ∃ state, IsPath .idle (reported steps) state
  edge : ∀ earlier step later, steps = earlier ++ step :: later →
    ∀ change ∈ step.transitions, Edge earlier step change.source change.target
  /-- The connection is closed at most once, and for good. -/
  closed_last : ∀ first change last, reported steps = first ++ change :: last →
    change.target = .closed → last = []
  failureFits : ∀ change ∈ reported steps, change.FailureFits
  /-- The connection is closed with a failure exactly when a run returns it. -/
  returned_iff : ∀ step ∈ steps, ∀ failure,
    (∃ change ∈ step.transitions, change.target = .closed ∧ change.failure = some failure) ↔
      step.returned? = some (some failure)

namespace Connection.Course

variable {connection : Connection} {fanOut : FanOut} {act : Act} {passed : List Transition}
  {life : Life}

theorem isPath (h : connection.Course fanOut act passed life) :
    IsPath connection.life.state passed life.state := by
  cases h with
  | nothing => rfl
  | begun h token hawait =>
      rw [h]
      exact ⟨rfl, hawait.symm⟩
  | begunInVain h token =>
      rw [h]
      exact ⟨rfl, rfl, rfl, rfl⟩
  | closedUnstarted h =>
      rw [h]
      exact ⟨rfl, rfl⟩
  | interrupted h =>
      rw [h]
      exact ⟨rfl, rfl, rfl⟩
  | busy h signal hbudget hstate =>
      rw [h]
      exact hstate.symm
  | linked h signal hstate hlinked =>
      rw [h]
      exact ⟨hstate.symm, hlinked.symm⟩
  | failed h =>
      rw [h]
      exact ⟨rfl, rfl⟩
  | exhausted h =>
      rw [h]
      exact ⟨rfl, rfl, rfl⟩
  | singleShotOver h hsingle hends =>
      rw [h]
      exact ⟨hends.state_eq.symm, rfl⟩
  | queueClosed h =>
      rw [h]
      exact ⟨rfl, rfl⟩
  | retried h hawait =>
      rw [h]
      exact ⟨rfl, hawait.symm⟩

theorem failureFits (h : connection.Course fanOut act passed life) :
    ∀ change ∈ passed, change.FailureFits := by
  have hretry : ∀ {await signal failure} (used : Nat),
      connection.IsToRetry await signal failure →
      Transition.FailureFits ⟨await.state, .reconnecting, used, some failure⟩ := by
    intro await signal failure used hfailure
    refine ⟨failure, rfl, ?_⟩
    rcases hfailure with hfails | ⟨hends, -⟩
    · simp [hfails.state_eq, hfails.isEstablishFailure]
    · simp [hends.state_eq, hends.isLinkFailure]
  cases h with
  | failed h hfailure => simpa using hretry _ hfailure
  | exhausted h hfailure =>
      rintro change (_ | ⟨_, _ | ⟨_, ⟨⟩⟩⟩)
      · exact hretry _ hfailure
      · trivial
  -- No other course leads to reconnecting, and those that do not close carry no failure.
  | _ => simp [Transition.FailureFits]

theorem returned_iff (h : connection.Course fanOut act passed life) (failure : ConnectionError) :
    (∃ change ∈ passed, change.target = .closed ∧ change.failure = some failure) ↔
      act.returned? connection.life life = some (some failure) := by
  unfold Act.returned?
  cases h with
  | nothing =>
      -- The life stays as it is, so no run comes to its end.
      simp only [List.not_mem_nil, false_and, exists_false, false_iff]
      cases act <;> cases connection.life <;> simp
  | busy h => simp [h]
  | interrupted h => simp [h]
  | linked h => simp [h]
  | failed h => simp [h]
  | exhausted h => simp [h]
  | singleShotOver h => simp [h]
  | queueClosed h => simp [h]
  | retried h => simp [h]
  | begun h => simp [h]
  | begunInVain h => simp [h]
  | closedUnstarted => simp

/-- Only a connection that has not been run in the act has not been run after it. -/
theorem unstarted_of_after (h : connection.Course fanOut act passed life)
    (hlife : life = .unstarted) : connection.life = .unstarted ∧ act.isRun = false := by
  cases h with
  | nothing hact =>
      refine ⟨hlife, ?_⟩
      by_contra hrun
      exact hact (by simpa using hrun) hlife
  | _ => cases hlife

end Connection.Course

namespace Step

variable {step : Step} {earlier : List Step}

theorem edge (h : step.before.Coherent)
    (hunrun : step.before.life = .unstarted → ∀ before ∈ earlier, before.act.isRun = false) :
    ∀ change ∈ step.transitions, Edge earlier step change.source change.target := by
  have hcourse := step.course h
  -- To split into courses, what belongs to this step has to be forgotten.
  generalize hact : step.act = act at hcourse
  generalize step.transitions = passed at hcourse ⊢
  generalize step.after.life = life at hcourse
  have hretry : ∀ {await signal failure},
      step.before.IsToRetry await signal failure → Edge earlier step await.state .reconnecting := by
    intro await signal failure hfailure
    rcases hfailure with hfails | ⟨hends, hsingle⟩
    · rw [hfails.state_eq]
      exact .failAttempt
    · rw [hends.state_eq]
      exact .loseLink hsingle
  cases hcourse with
  | nothing => simp
  | begun h token hawait => simpa using Edge.begin
  | begunInVain h token =>
      have hdrain : Edge earlier step .establishing .draining := by
        refine .drain (by simp) ?_
        rw [hact]
        rfl
      simpa using ⟨Edge.begin, hdrain, Edge.drained⟩
  | closedUnstarted h => simpa using Edge.closeUnrun hact (hunrun h)
  | @interrupted run await h signal =>
      have hdrain : Edge earlier step await.state .draining := by
        refine .drain (by cases await <;> simp [Await.state]) ?_
        rw [hact]
        rfl
      simpa using ⟨hdrain, Edge.drained⟩
  | busy => simp
  | linked => simpa using Edge.link
  | failed h hfailure => simpa using hretry hfailure
  | exhausted h hfailure hspent => simpa using ⟨hretry hfailure, Edge.giveUp ⟨_, _, h, hspent⟩⟩
  | singleShotOver h hsingle hends =>
      simpa using Edge.endSingleShot hsingle ⟨_, _, _, h, hact, hends⟩
  | queueClosed h hclosed => simpa using Edge.endQueue hclosed
  | retried => simpa using Edge.retry

end Step

namespace Connection

variable {connection : Connection}

theorem unrun_of_afterAll (h : connection.Coherent) {occasions : List Occasion}
    (hafter : (connection.afterAll occasions).life = .unstarted) :
    connection.life = .unstarted ∧
      ∀ step ∈ connection.history occasions, step.act.isRun = false := by
  induction occasions generalizing connection with
  | nil => exact ⟨hafter, by simp [history]⟩
  | cons occasion occasions ih =>
      let step : Step := ⟨connection, occasion⟩
      obtain ⟨hstep, hrest⟩ := ih (step.after_coherent h) hafter
      obtain ⟨hbefore, hact⟩ := (step.course h).unstarted_of_after hstep
      refine ⟨hbefore, ?_⟩
      intro other hother
      rcases List.mem_cons.mp hother with rfl | hother
      · exact hact
      · exact hrest other hother

theorem history_isPath (h : connection.Coherent) (occasions : List Occasion) :
    IsPath connection.state (reported (connection.history occasions))
      (connection.afterAll occasions).state := by
  induction occasions generalizing connection with
  | nil => rfl
  | cons occasion occasions ih =>
      let step : Step := ⟨connection, occasion⟩
      refine isPath_append.mpr ⟨step.after.state, ?_, ih (step.after_coherent h)⟩
      rw [h, step.after_coherent h]
      exact (step.course h).isPath

theorem history_edge (h : connection.Coherent) {occasions : List Occasion}
    {earlier later : List Step} {step : Step}
    (hsteps : connection.history occasions = earlier ++ step :: later) :
    ∀ change ∈ step.transitions, Edge earlier step change.source change.target := by
  obtain ⟨first, last, rfl, rfl, hbefore⟩ := history_split hsteps
  apply Step.edge
  · rw [hbefore]
    exact afterAll_coherent h first
  · intro hlife
    rw [hbefore] at hlife
    exact (unrun_of_afterAll h hlife).2

theorem history_closed_last (h : connection.Coherent) {occasions : List Occasion}
    {first last : List Transition} {change : Transition}
    (hreported : reported (connection.history occasions) = first ++ change :: last)
    (hclosed : change.target = .closed) : last = [] := by
  cases last with
  | nil => rfl
  | cons next last =>
      exfalso
      -- The next change would have to lead out of the closed state.
      have hpath := history_isPath h occasions
      rw [hreported] at hpath
      have hmem : next ∈ reported (connection.history occasions) := by
        rw [hreported]
        simp
      obtain ⟨step, hstep, hnext⟩ := List.mem_flatMap.mp hmem
      obtain ⟨earlier, later, hsteps⟩ := List.append_of_mem hstep
      apply (history_edge h hsteps next hnext).source_ne_closed
      rw [hpath.source_eq, hclosed]

/-- Whatever happens to a connection, in whichever order and however often it is run and
closed, its life is lawful. -/
theorem history_isLawful (parent : ComponentPath) (config : ConnectionConfig)
    (framePath : FramePath) (occasions : List Occasion) :
    IsLawful ((ofConfig parent config framePath).history occasions) := by
  have h := ofConfig_coherent parent config framePath
  constructor
  case isPath => exact ⟨_, history_isPath h occasions⟩
  case edge =>
    intro earlier step later hsteps
    exact history_edge h hsteps
  case closed_last =>
    intro first change last hreported hclosed
    exact history_closed_last h hreported hclosed
  case failureFits =>
    intro change hchange
    obtain ⟨step, hstep, hchange⟩ := List.mem_flatMap.mp hchange
    exact (step.course (before_coherent h hstep)).failureFits change hchange
  case returned_iff =>
    intro step hstep failure
    exact (step.course (before_coherent h hstep)).returned_iff failure

end Connection

end LiveRelay
