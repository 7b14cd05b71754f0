import LiveRelay.Proofs.Connection.Retries

/-! # The retry budget over the life of a connection

Whatever the network does, a connection that nobody stops uses its retries exactly: it
gives up when one is needed and none is left, and not before. A link brings all of them
back.
-/

namespace LiveRelay

/-- In these steps a budget of `limit` retries is kept exactly. -/
structure KeepsBudget (limit : Nat) (steps : List Step) : Prop where
  /-- Every change carries the number of retries since the last link. -/
  attempt_eq : ∀ first change last, reported steps = first ++ change :: last →
    change.attempt = retries (first ++ [change])
  /-- While no link comes up there are no more retries than the budget has. -/
  retries_le : ∀ first stretch last, reported steps = first ++ stretch ++ last →
    (∀ change ∈ stretch, change.target ≠ .active) →
    stretch.countP Transition.isRetry ≤ limit
  reconnecting_next : ∀ first change next last,
    reported steps = first ++ change :: next :: last → change.target = .reconnecting →
    (change.attempt < limit ∧ next.target = .establishing ∧
        next.attempt = change.attempt + 1) ∨
      (change.attempt = limit ∧ next.target = .closed ∧ next.attempt = limit)
  /-- A connection that still pauses has a retry left to make. -/
  reconnecting_last : ∀ first change, reported steps = first ++ [change] →
    change.target = .reconnecting → change.attempt < limit
  givesUp_iff : ∀ earlier step later, steps = earlier ++ step :: later →
    (step.GivesUp ↔
      (∃ failure, step.FailsToRetry failure) ∧ retries (reported earlier) = limit)
  attempts_eq : ∀ step ∈ steps, ∀ address attempts,
    step.returned? = some (some (.budgetExhausted address attempts)) → attempts = limit
  /-- A connection that never had a link has made one attempt more than it has retries. -/
  attempts_unlinked : ∀ earlier step later, steps = earlier ++ step :: later →
    step.GivesUp → (∀ change ∈ reported earlier, change.target ≠ .active) →
    (reported earlier).countP Transition.isAttempt = limit + 1
  /-- After its last link it has made as many attempts as it has retries. -/
  attempts_linked : ∀ earlier step later, steps = earlier ++ step :: later →
    step.GivesUp → ∀ first link stretch, reported earlier = first ++ link :: stretch →
    link.target = .active → (∀ change ∈ stretch, change.target ≠ .active) →
    stretch.countP Transition.isAttempt = limit

/-- In these steps the retries never come to an end. -/
structure NeverGivesUp (steps : List Step) : Prop where
  /-- Every change carries the number of retries since the last link, as far as it is
  counted. -/
  attempt_eq : ∀ first change last, reported steps = first ++ change :: last →
    change.attempt = min (retries (first ++ [change])) RetryBudget.maxUsed
  not_givesUp : ∀ step ∈ steps, ¬ step.GivesUp

namespace Connection

/-- The connection is new, and nobody cancels its run. -/
structure IsUndisturbed (connection : Connection) (occasions : List Occasion) : Prop where
  coherent : connection.Coherent
  unstarted : connection.life = .unstarted
  uncancelled : ∀ occasion ∈ occasions, occasion.act.cancelled = false

variable {connection : Connection} {occasions : List Occasion} {limit : Nat}
  {earlier later : List Step} {step : Step}

theorem afterAll_tally (h : connection.Coherent) {taken : Nat}
    (htaken : connection.life.HasRetried connection.config.reconnect taken)
    (hacts : ∀ occasion ∈ occasions, occasion.act.cancelled = false) :
    Tally connection.config.reconnect taken (reported (connection.history occasions))
      (connection.afterAll occasions).life := by
  induction occasions generalizing connection taken with
  | nil => exact .nil htaken
  | cons occasion occasions ih =>
      let step : Step := ⟨connection, occasion⟩
      have hfirst := (step.course h).tally (hacts occasion List.mem_cons_self) htaken
      have hconfig : step.after.config = connection.config := step.after_config h
      have hrest := ih (step.after_coherent h) (hconfig.symm ▸ hfirst.hasRetried)
        (fun next hnext => hacts next (List.mem_cons_of_mem _ hnext))
      rw [hconfig] at hrest
      exact hfirst.append hrest

namespace IsUndisturbed

theorem tally (h : connection.IsUndisturbed occasions) :
    Tally connection.config.reconnect 0 (reported (connection.history occasions))
      (connection.afterAll occasions).life := by
  apply afterAll_tally h.coherent _ h.uncancelled
  rw [h.unstarted]
  rfl

theorem isPath (h : connection.IsUndisturbed occasions) :
    IsPath .idle (reported (connection.history occasions))
      (connection.afterAll occasions).life.state := by
  have hpath := history_isPath h.coherent occasions
  rw [h.coherent, h.unstarted, afterAll_coherent h.coherent occasions] at hpath
  exact hpath

/-- What happens before a step is undisturbed too. -/
theorem before (h : connection.IsUndisturbed occasions)
    (hsteps : connection.history occasions = earlier ++ step :: later) :
    ∃ first, connection.IsUndisturbed first ∧ earlier = connection.history first ∧
      step.before = connection.afterAll first := by
  obtain ⟨first, last, rfl, hearlier, hbefore⟩ := history_split hsteps
  refine ⟨first, ⟨h.coherent, h.unstarted, ?_⟩, hearlier, hbefore⟩
  intro occasion hoccasion
  exact h.uncancelled occasion (List.mem_append_left _ hoccasion)

/-- Before a step, the connection has taken the retries that were reported so far. -/
theorem hasRetried (h : connection.IsUndisturbed occasions)
    (hsteps : connection.history occasions = earlier ++ step :: later) :
    step.before.Coherent ∧ step.before.config = connection.config ∧
      step.before.life.HasRetried step.before.config.reconnect (retries (reported earlier)) := by
  obtain ⟨first, hfirst, rfl, hbefore⟩ := h.before hsteps
  have hconfig := afterAll_config h.coherent first
  rw [hbefore, hconfig]
  exact ⟨afterAll_coherent h.coherent first, rfl, hfirst.tally.hasRetried⟩

/-- Every change that is reported is an edge, and none leads to draining. -/
theorem edge (h : connection.IsUndisturbed occasions) {change : Transition}
    (hchange : change ∈ reported (connection.history occasions)) :
    (∃ earlier step, Edge earlier step change.source change.target) ∧
      change.target ≠ .draining := by
  obtain ⟨step, hstep, hchange⟩ := List.mem_flatMap.mp hchange
  obtain ⟨earlier, later, hsteps⟩ := List.append_of_mem hstep
  have hedge := history_edge h.coherent hsteps change hchange
  refine ⟨⟨earlier, step, hedge⟩, ?_⟩
  intro hdraining
  obtain ⟨first, last, hoccasions, -, -⟩ := history_split hsteps
  have hact : step.act.cancelled = false := h.uncancelled step.occasion (by simp [hoccasions])
  rw [hdraining] at hedge
  rw [hedge.cancelled_of_draining] at hact
  cases hact

theorem givesUp_iff (h : connection.IsUndisturbed occasions)
    (hpolicy : connection.config.reconnect = .bounded limit)
    (hsteps : connection.history occasions = earlier ++ step :: later) :
    step.GivesUp ↔
      (∃ failure, step.FailsToRetry failure) ∧ retries (reported earlier) = limit := by
  obtain ⟨hcoherent, hconfig, htaken⟩ := h.hasRetried hsteps
  rw [Step.givesUp_iff hcoherent htaken, hconfig, hpolicy, ReconnectPolicy.bounded.injEq]
  exact and_congr_right fun _ => eq_comm

/-- Whatever fails has been sought or held, so the path before the failure leads neither back
to the start nor to the end. -/
theorem isPath_of_fails (h : connection.IsUndisturbed occasions)
    (hsteps : connection.history occasions = earlier ++ step :: later)
    {failure : ConnectionError} (hfails : step.FailsToRetry failure) :
    ∃ target, IsPath .idle (reported earlier) target ∧ target ≠ .idle ∧ target ≠ .closed ∧
      ∀ change ∈ reported earlier,
        ∃ earlier step, Edge earlier step change.source change.target := by
  obtain ⟨first, hfirst, rfl, hbefore⟩ := h.before hsteps
  obtain ⟨run, await, -, hlife, -, -⟩ := hfails
  rw [hbefore] at hlife
  refine ⟨_, hfirst.isPath, ?_, ?_, fun change hchange => (hfirst.edge hchange).1⟩
  · rw [hlife]
    cases await <;> simp [Life.state, Await.state]
  · rw [hlife]
    cases await <;> simp [Life.state, Await.state]

theorem attempts_unlinked (h : connection.IsUndisturbed occasions)
    (hpolicy : connection.config.reconnect = .bounded limit)
    (hsteps : connection.history occasions = earlier ++ step :: later) (hgives : step.GivesUp)
    (hunlinked : ∀ change ∈ reported earlier, change.target ≠ .active) :
    (reported earlier).countP Transition.isAttempt = limit + 1 := by
  obtain ⟨⟨failure, hfails⟩, hlimit⟩ := (h.givesUp_iff hpolicy hsteps).mp hgives
  obtain ⟨target, hpath, hidle, hclosed, hedge⟩ := h.isPath_of_fails hsteps hfails
  rw [countP_isAttempt_unlinked hpath hidle hclosed hedge]
  rw [retries, foldl_retriesAfter hunlinked] at hlimit
  omega

theorem attempts_linked (h : connection.IsUndisturbed occasions)
    (hpolicy : connection.config.reconnect = .bounded limit)
    (hsteps : connection.history occasions = earlier ++ step :: later) (hgives : step.GivesUp)
    {first stretch : List Transition} {link : Transition}
    (hreported : reported earlier = first ++ link :: stretch) (hlink : link.target = .active)
    (hstretch : ∀ change ∈ stretch, change.target ≠ .active) :
    stretch.countP Transition.isAttempt = limit := by
  obtain ⟨⟨failure, hfails⟩, hlimit⟩ := (h.givesUp_iff hpolicy hsteps).mp hgives
  obtain ⟨target, hpath, -, -, hedge⟩ := h.isPath_of_fails hsteps hfails
  rw [hreported] at hpath hedge hlimit
  obtain ⟨middle, -, -, hrest⟩ := isPath_append.mp hpath
  rw [hlink] at hrest
  have hattempts := hrest.countP_isAttempt (by simp)
    (fun change hchange => hedge change (by simp [hchange]))
  -- The link sets the count back, so only the stretch behind it adds to the retries.
  rw [retries_append, List.foldl_cons, foldl_retriesAfter hstretch] at hlimit
  rw [Transition.retriesAfter, if_pos hlink] at hlimit
  omega

theorem keepsBudget (h : connection.IsUndisturbed occasions)
    (hpolicy : connection.config.reconnect = .bounded limit) :
    KeepsBudget limit (connection.history occasions) := by
  have htally := h.tally
  rw [hpolicy] at htally
  constructor
  case attempt_eq =>
    intro first change last hreported
    exact htally.numbered.attempt_eq hreported
  case retries_le =>
    intro first stretch last hreported hstretch
    exact htally.countP_isRetry_le hreported hstretch
  case reconnecting_next =>
    intro first change next last hreported hchange
    exact htally.reconnecting_next h.isPath (fun _ => h.edge) hreported hchange
  case reconnecting_last =>
    intro first change hreported hchange
    exact htally.reconnecting_last h.isPath hreported hchange
  case givesUp_iff =>
    intro earlier step later hsteps
    exact h.givesUp_iff hpolicy hsteps
  case attempts_eq =>
    intro step hstep address attempts hreturned
    obtain ⟨earlier, later, hsteps⟩ := List.append_of_mem hstep
    obtain ⟨hcoherent, hconfig, htaken⟩ := h.hasRetried hsteps
    obtain ⟨-, hlimit, hattempts⟩ := Step.fails_of_returned hcoherent htaken hreturned
    rw [hconfig, hpolicy, ReconnectPolicy.bounded.injEq] at hlimit
    exact hattempts.trans hlimit.symm
  case attempts_unlinked =>
    intro earlier step later hsteps hgives hunlinked
    exact h.attempts_unlinked hpolicy hsteps hgives hunlinked
  case attempts_linked =>
    intro earlier step later hsteps hgives first link stretch hreported hlink hstretch
    exact h.attempts_linked hpolicy hsteps hgives hreported hlink hstretch

theorem neverGivesUp (h : connection.IsUndisturbed occasions)
    (hpolicy : connection.config.reconnect = .unlimited) :
    NeverGivesUp (connection.history occasions) := by
  have htally := h.tally
  rw [hpolicy] at htally
  constructor
  case attempt_eq =>
    intro first change last hreported
    exact htally.numbered.attempt_eq hreported
  case not_givesUp =>
    intro step hstep hgives
    obtain ⟨earlier, later, hsteps⟩ := List.append_of_mem hstep
    obtain ⟨hcoherent, hconfig, htaken⟩ := h.hasRetried hsteps
    obtain ⟨-, hbounded⟩ := (Step.givesUp_iff hcoherent htaken).mp hgives
    rw [hconfig, hpolicy] at hbounded
    cases hbounded

end IsUndisturbed

/-- While nobody cancels the run of a connection, a bounded budget is kept exactly and an
unlimited one never comes to an end, whatever the network does. -/
theorem history_keepsBudget (parent : ComponentPath) (config : ConnectionConfig)
    (framePath : FramePath) (occasions : List Occasion)
    (hacts : ∀ occasion ∈ occasions, occasion.act.cancelled = false) :
    let steps := (ofConfig parent config framePath).history occasions
    (∀ limit, config.reconnect = .bounded limit → KeepsBudget limit steps) ∧
      (config.reconnect = .unlimited → NeverGivesUp steps) := by
  have h : (ofConfig parent config framePath).IsUndisturbed occasions :=
    ⟨ofConfig_coherent parent config framePath, rfl, hacts⟩
  constructor
  · intro limit hpolicy
    exact h.keepsBudget hpolicy
  · intro hpolicy
    exact h.neverGivesUp hpolicy

/-- A client that may try once more after a failure. -/
def oneRetryConfig : ConnectionConfig where
  index := 0
  address := "peer:1935"
  role := .client
  direction := .input
  connectionTimeout := ⟨5000000000⟩
  reconnectInterval := ⟨5000000000⟩
  reconnect := .bounded 1
  pingInterval := ⟨60000000000⟩
  bufferSize := 3000
  amfVersion := none
  listenMode := .persistent
  codec := .raw

/-- It gets a link and loses it, and then the peer is not there any more. -/
def lostPeer : List Occasion :=
  [.run .relay false, .poll false (.dialled (.ok ())), .poll false (.received (.ok .empty)),
    .poll false .rested, .poll false (.dialled (.error "connection refused"))].map
    fun act => { act, fanOut := { filter := {}, sinks := [] } }

theorem history_keepsBudget_lostPeer :
    let steps := (ofConfig .root oneRetryConfig .publish).history lostPeer
    (∀ occasion ∈ lostPeer, occasion.act.cancelled = false) ∧ KeepsBudget 1 steps ∧
      steps.map Step.returned? =
        [none, none, none, none, some (some (.budgetExhausted "peer:1935" 1))] := by
  have hacts : ∀ occasion ∈ lostPeer, occasion.act.cancelled = false := by decide
  have hkeeps := (history_keepsBudget .root oneRetryConfig .publish lostPeer hacts).1 1 rfl
  exact ⟨hacts, hkeeps, by decide⟩

end Connection

end LiveRelay
