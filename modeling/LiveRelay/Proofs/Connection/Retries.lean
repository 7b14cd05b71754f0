import LiveRelay.Proofs.Connection.Lifecycle

/-! # Counting retries

A retry is a change from reconnecting to establishing. What a connection has taken from its
budget is a matter of the retries since it last had a link, and so is the attempt that
every change of state carries. `Course.tally` says so for one act.
-/

namespace LiveRelay

namespace RetryBudget

/-- A budget is spent when it is bounded and nothing of it is left. -/
theorem consume?_eq_none_iff {budget : RetryBudget} :
    budget.consume? = none ↔ ∃ limit, budget.policy = .bounded limit ∧ limit ≤ budget.used := by
  unfold consume?
  cases budget.policy with
  | unlimited => simp
  | bounded limit => simp

end RetryBudget

namespace Transition

/-- Whether another attempt begins after a pause. -/
def isRetry (change : Transition) : Bool :=
  change.source = .reconnecting && change.target = .establishing

/-- Whether an attempt to get a link begins, the first one or another. -/
def isAttempt (change : Transition) : Bool := change.target = .establishing

/-- The retries since the last link, when there were `used` before the change. -/
def retriesAfter (used : Nat) (change : Transition) : Nat :=
  if change.target = .active then 0 else if change.isRetry then used + 1 else used

end Transition

/-- The retries since the last link, after these changes of state. -/
def retries (changes : List Transition) : Nat := changes.foldl Transition.retriesAfter 0

/-- What the policy makes of a number of retries: an unlimited one counts no further than
`RetryBudget.maxUsed`. -/
def ReconnectPolicy.count (policy : ReconnectPolicy) (retries : Nat) : Nat :=
  match policy with
  | .unlimited => min retries RetryBudget.maxUsed
  | .bounded _ => retries

@[simp] theorem ReconnectPolicy.count_zero (policy : ReconnectPolicy) : policy.count 0 = 0 := by
  cases policy <;> rfl

/-! ## Counting -/

theorem retries_append (first second : List Transition) :
    retries (first ++ second) = second.foldl Transition.retriesAfter (retries first) :=
  List.foldl_append

/-- Without a link, the retries add up. -/
theorem foldl_retriesAfter {changes : List Transition}
    (h : ∀ change ∈ changes, change.target ≠ .active) (used : Nat) :
    changes.foldl Transition.retriesAfter used =
      used + changes.countP Transition.isRetry := by
  induction changes generalizing used with
  | nil => rfl
  | cons change changes ih =>
      rw [List.foldl_cons, ih (fun next hnext => h next (List.mem_cons_of_mem _ hnext))]
      rw [Transition.retriesAfter, if_neg (h change List.mem_cons_self), List.countP_cons]
      split_ifs <;> omega

theorem retriesAfter_of_isRetry {change : Transition} (h : change.isRetry = true) (used : Nat) :
    change.retriesAfter used = used + 1 := by
  have htarget : change.target = .establishing := by
    simp only [Transition.isRetry, Bool.and_eq_true, decide_eq_true_eq] at h
    exact h.2
  simp [Transition.retriesAfter, h, htarget]

/-- Every change carries what the policy makes of the retries since the last link, when
there were `used` before the first. -/
def Numbered (policy : ReconnectPolicy) : (used : Nat) → List Transition → Prop
  | _, [] => True
  | used, change :: changes =>
      change.attempt = policy.count (change.retriesAfter used) ∧
        Numbered policy (change.retriesAfter used) changes

theorem numbered_append {policy : ReconnectPolicy} {used : Nat}
    {first second : List Transition} :
    Numbered policy used (first ++ second) ↔
      Numbered policy used first ∧
        Numbered policy (first.foldl Transition.retriesAfter used) second := by
  induction first generalizing used with
  | nil => simp [Numbered]
  | cons change first ih => simp [Numbered, ih, and_assoc]

theorem Numbered.attempt_eq {policy : ReconnectPolicy} {changes first last : List Transition}
    {change : Transition} (h : Numbered policy 0 changes)
    (hchanges : changes = first ++ change :: last) :
    change.attempt = policy.count (retries (first ++ [change])) := by
  rw [hchanges] at h
  rw [retries_append]
  exact (numbered_append.mp h).2.1

/-- The budget is one of the policy, and so many retries have been taken from it. -/
structure BudgetFits (policy : ReconnectPolicy) (budget : RetryBudget) (taken : Nat) : Prop where
  policy_eq : budget.policy = policy
  used_eq : budget.used = policy.count taken
  used_le : ∀ limit, policy = .bounded limit → budget.used ≤ limit

namespace BudgetFits

variable {policy : ReconnectPolicy} {budget : RetryBudget} {taken : Nat}

theorem fresh (policy : ReconnectPolicy) : BudgetFits policy { policy } 0 := by
  constructor <;> simp

theorem reset (h : BudgetFits policy budget taken) : BudgetFits policy budget.reset 0 := by
  constructor <;> simp [RetryBudget.reset, h.policy_eq]

theorem consume (h : BudgetFits policy budget taken) {next : RetryBudget}
    (hnext : budget.consume? = some next) : BudgetFits policy next (taken + 1) := by
  have hused := h.used_eq
  unfold RetryBudget.consume? at hnext
  rw [h.policy_eq] at hnext
  cases policy with
  | unlimited =>
      cases hnext
      refine ⟨rfl, ?_, nofun⟩
      simp only [ReconnectPolicy.count] at hused ⊢
      omega
  | bounded limit =>
      simp only [] at hnext
      split_ifs at hnext with hlt
      cases hnext
      refine ⟨rfl, ?_, ?_⟩
      · simp only [ReconnectPolicy.count] at hused ⊢
        omega
      · rintro _ ⟨⟩
        exact hlt

theorem consume?_eq_none (h : BudgetFits policy budget taken) :
    budget.consume? = none ↔ policy = .bounded taken := by
  rw [RetryBudget.consume?_eq_none_iff, h.policy_eq]
  constructor
  · rintro ⟨limit, rfl, hle⟩
    have hused := h.used_eq
    have hlimit := h.used_le limit rfl
    simp only [ReconnectPolicy.count] at hused
    rw [show limit = taken by omega]
  · rintro rfl
    exact ⟨taken, rfl, Nat.le_of_eq h.used_eq.symm⟩

end BudgetFits

/-- A connection that has come this far has taken its retries from its budget. One that
pauses has taken the retry that comes next. -/
def Life.HasRetried (policy : ReconnectPolicy) (taken : Nat) : Life → Prop
  | .unstarted => taken = 0
  | .running run await =>
      BudgetFits policy run.budget (if await.state = .reconnecting then taken + 1 else taken)
  | .ended _ => True

/-- The change keeps to the policy: no attempt beyond the limit, and an end for want of
retries only at the limit. -/
def Transition.KeepsTo (policy : ReconnectPolicy) (change : Transition) : Prop :=
  ∀ limit, policy = .bounded limit → change.attempt ≤ limit ∧
    (change.source = .reconnecting → change.target = .closed → change.attempt = limit)

/-- These changes are numbered, keep to the policy, and leave the connection with what it
has taken. -/
structure Tally (policy : ReconnectPolicy) (taken : Nat) (passed : List Transition)
    (life : Life) : Prop where
  numbered : Numbered policy taken passed
  keepsTo : ∀ change ∈ passed, change.KeepsTo policy
  hasRetried : life.HasRetried policy (passed.foldl Transition.retriesAfter taken)

namespace Tally

variable {policy : ReconnectPolicy} {taken : Nat} {passed : List Transition} {life : Life}

theorem nil (h : life.HasRetried policy taken) : Tally policy taken [] life :=
  ⟨trivial, by simp, h⟩

theorem cons {change : Transition}
    (hattempt : change.attempt = policy.count (change.retriesAfter taken))
    (hkeepsTo : change.KeepsTo policy) (h : Tally policy (change.retriesAfter taken) passed life) :
    Tally policy taken (change :: passed) life where
  numbered := ⟨hattempt, h.numbered⟩
  keepsTo := by
    intro next hnext
    rcases List.mem_cons.mp hnext with rfl | hnext
    · exact hkeepsTo
    · exact h.keepsTo next hnext
  hasRetried := h.hasRetried

theorem append {first second : List Transition} {middle : Life}
    (hfirst : Tally policy taken first middle)
    (hsecond : Tally policy (first.foldl Transition.retriesAfter taken) second life) :
    Tally policy taken (first ++ second) life where
  numbered := numbered_append.mpr ⟨hfirst.numbered, hsecond.numbered⟩
  keepsTo := by
    intro change hchange
    rcases List.mem_append.mp hchange with hchange | hchange
    · exact hfirst.keepsTo change hchange
    · exact hsecond.keepsTo change hchange
  hasRetried := by
    rw [List.foldl_append]
    exact hsecond.hasRetried

/-- A change that is no retry and brings no link, with all that was taken from a budget. -/
theorem cons_of_fits {budget : RetryBudget} (hfits : BudgetFits policy budget taken)
    {source target : ConnectionState} {failure : Option ConnectionError}
    (hactive : target ≠ .active) (hestablishing : target ≠ .establishing)
    (hend : source = .reconnecting → budget.consume? = none)
    (h : Tally policy taken passed life) :
    Tally policy taken (⟨source, target, budget.used, failure⟩ :: passed) life := by
  have hretries : Transition.retriesAfter taken ⟨source, target, budget.used, failure⟩ = taken := by
    simp [Transition.retriesAfter, Transition.isRetry, hactive, hestablishing]
  apply cons
  · rw [hretries]
    exact hfits.used_eq
  · rintro limit rfl
    refine ⟨hfits.used_le limit rfl, ?_⟩
    intro hsource _
    have hspent := hfits.consume?_eq_none.mp (hend hsource)
    rw [ReconnectPolicy.bounded.injEq] at hspent
    exact hfits.used_eq.trans hspent.symm
  · rw [hretries]
    exact h

end Tally

theorem Connection.IsToRetry.state_ne {connection : Connection} {await : Await}
    {signal : Signal} {failure : ConnectionError}
    (h : connection.IsToRetry await signal failure) : await.state ≠ .reconnecting := by
  rcases h with hfails | ⟨hends, -⟩
  · simp [hfails.state_eq]
  · simp [hends.state_eq]

theorem Connection.Course.tally {connection : Connection} {fanOut : FanOut} {act : Act}
    {passed : List Transition} {life : Life} (h : connection.Course fanOut act passed life)
    (hact : act.cancelled = false) {taken : Nat}
    (htaken : connection.life.HasRetried connection.config.reconnect taken) :
    Tally connection.config.reconnect taken passed life := by
  generalize hpolicy : connection.config.reconnect = policy at htaken ⊢
  have hzero : ∀ {source target : ConnectionState}, source ≠ .reconnecting →
      Transition.KeepsTo policy ⟨source, target, 0, none⟩ := by
    rintro source target hsource limit rfl
    exact ⟨Nat.zero_le _, fun heq => absurd heq hsource⟩
  cases h with
  | nothing => exact .nil htaken
  | begun h token hawait =>
      rw [h] at htaken
      obtain rfl : taken = 0 := htaken
      refine .cons ?_ (hzero (by simp)) (.nil ?_)
      · simp [Transition.retriesAfter, Transition.isRetry]
      · simpa [Life.HasRetried, hawait, hpolicy, Transition.retriesAfter, Transition.isRetry]
          using BudgetFits.fresh policy
  -- Only a run that has been cancelled takes this course, or the one of an interruption.
  | begunInVain => cases hact
  | closedUnstarted h =>
      rw [h] at htaken
      obtain rfl : taken = 0 := htaken
      exact .cons (by simp [Transition.retriesAfter, Transition.isRetry]) (hzero (by simp))
        (.nil trivial)
  | interrupted => cases hact
  | busy h signal hbudget hstate =>
      rw [h] at htaken
      refine .nil ?_
      simpa [Life.HasRetried, hbudget, hstate] using htaken
  | linked h signal hstate hlinked =>
      rw [h] at htaken
      refine .cons (by simp [Transition.retriesAfter]) (hzero (by simp)) (.nil ?_)
      simpa [Life.HasRetried, hlinked, Transition.retriesAfter] using BudgetFits.reset htaken
  | failed h hfailure hbudget =>
      rw [h] at htaken
      have hstate := hfailure.state_ne
      rw [Life.HasRetried, if_neg hstate] at htaken
      refine .cons_of_fits htaken (by simp) (by simp) (fun heq => absurd heq hstate) (.nil ?_)
      simpa [Life.HasRetried, Await.state] using htaken.consume hbudget
  | exhausted h hfailure hspent =>
      rw [h] at htaken
      have hstate := hfailure.state_ne
      rw [Life.HasRetried, if_neg hstate] at htaken
      refine .cons_of_fits htaken (by simp) (by simp) (fun heq => absurd heq hstate) ?_
      exact .cons_of_fits htaken (by simp) (by simp) (fun _ => hspent) (.nil trivial)
  | singleShotOver h hsingle hends =>
      rw [h, Life.HasRetried, hends.state_eq] at htaken
      exact .cons_of_fits htaken (by simp) (by simp) (by simp) (.nil trivial)
  | queueClosed h =>
      rw [h] at htaken
      exact .cons_of_fits htaken (by simp) (by simp) (by simp) (.nil trivial)
  | @retried run h await hawait =>
      rw [h] at htaken
      -- The pause has taken this retry already.
      have hfits : BudgetFits policy run.budget (taken + 1) := htaken
      have hretry : Transition.retriesAfter taken
          ⟨.reconnecting, .establishing, run.budget.used, none⟩ = taken + 1 := rfl
      refine .cons hfits.used_eq ?_ (.nil ?_)
      · rintro limit rfl
        exact ⟨hfits.used_le limit rfl, by simp⟩
      · rw [hretry]
        simpa [Life.HasRetried, hawait] using hfits

/-- A run returns that its budget is exhausted only when it was spent on a failure to retry. -/
theorem Connection.Course.exhausted_of_returned {connection : Connection} {fanOut : FanOut}
    {act : Act} {passed : List Transition} {life : Life}
    (h : connection.Course fanOut act passed life) {address : String} {attempts : Nat}
    (hreturned : act.returned? connection.life life =
      some (some (.budgetExhausted address attempts))) :
    ∃ run await signal failure, connection.life = .running run await ∧
      act = .poll false signal ∧ connection.IsToRetry await signal failure ∧
      run.budget.consume? = none ∧ run.budget.used = attempts := by
  unfold Act.returned? at hreturned
  cases h with
  | exhausted hlife hfailure hspent =>
      simp only [hlife, Option.some.injEq, ConnectionError.budgetExhausted.injEq] at hreturned
      exact ⟨_, _, _, _, hlife, rfl, hfailure, hspent, hreturned.2⟩
  | singleShotOver hlife hsingle hends =>
      simp only [hlife, Option.some.injEq] at hreturned
      cases hends <;> cases hreturned
  | nothing => cases act <;> cases hlife : connection.life <;> simp [hlife] at hreturned
  | closedUnstarted => simp at hreturned
  | begun hlife => simp [hlife] at hreturned
  | begunInVain hlife => simp [hlife] at hreturned
  | interrupted hlife => simp [hlife] at hreturned
  | busy hlife => simp [hlife] at hreturned
  | linked hlife => simp [hlife] at hreturned
  | failed hlife => simp [hlife] at hreturned
  | queueClosed hlife => simp [hlife] at hreturned
  | retried hlife => simp [hlife] at hreturned

/-- The connection gives up in this step: its run returns that the budget is exhausted. -/
def Step.GivesUp (step : Step) : Prop :=
  ∃ address attempts, step.returned? = some (some (.budgetExhausted address attempts))

namespace Step

variable {step : Step} {taken : Nat}

theorem fails_of_returned (h : step.before.Coherent)
    (htaken : step.before.life.HasRetried step.before.config.reconnect taken) {address : String}
    {attempts : Nat}
    (hreturned : step.returned? = some (some (.budgetExhausted address attempts))) :
    (∃ failure, step.FailsToRetry failure) ∧ step.before.config.reconnect = .bounded taken ∧
      attempts = taken := by
  obtain ⟨run, await, signal, failure, hlife, hact, hfailure, hspent, hattempts⟩ :=
    (step.course h).exhausted_of_returned hreturned
  rw [hlife, Life.HasRetried, if_neg hfailure.state_ne] at htaken
  have hpolicy := htaken.consume?_eq_none.mp hspent
  refine ⟨⟨failure, run, await, signal, hlife, hact, hfailure⟩, hpolicy, ?_⟩
  have hused := htaken.used_eq
  rw [hpolicy] at hused
  exact hattempts.symm.trans hused

theorem givesUp_of_fails (htaken : step.before.life.HasRetried (.bounded taken) taken)
    {failure : ConnectionError} (hfails : step.FailsToRetry failure) : step.GivesUp := by
  obtain ⟨run, await, signal, hlife, hact, hfailure⟩ := hfails
  rw [hlife, Life.HasRetried, if_neg hfailure.state_ne] at htaken
  have hspent := htaken.consume?_eq_none.mpr rfl
  have hturn : step.turn = step.before.resume step.fanOut false signal := by
    rw [Step.turn, hact]
    rfl
  -- Whatever comes before the retry does not touch the budget that the run has.
  obtain ⟨failed, -, hresume⟩ := Connection.resume_of_isToRetry hlife hfailure step.fanOut
  have hafter := (Turn.retry_goes_exhausted hspent failed failure).life_eq
  rw [← hresume] at hafter
  refine ⟨failed.address, run.budget.used, ?_⟩
  simp only [returned?, Act.returned?, hact, hlife, after, hturn, hafter]

theorem givesUp_iff (h : step.before.Coherent)
    (htaken : step.before.life.HasRetried step.before.config.reconnect taken) :
    step.GivesUp ↔
      (∃ failure, step.FailsToRetry failure) ∧
        step.before.config.reconnect = .bounded taken := by
  constructor
  · rintro ⟨address, attempts, hreturned⟩
    obtain ⟨hfails, hpolicy, -⟩ := fails_of_returned h htaken hreturned
    exact ⟨hfails, hpolicy⟩
  · rintro ⟨⟨failure, hfails⟩, hpolicy⟩
    rw [hpolicy] at htaken
    exact givesUp_of_fails htaken hfails

end Step

/-! ## Along a path -/

/-- Once a connection is under way, the attempts that it makes are its retries. -/
theorem IsPath.countP_isAttempt {source target : ConnectionState} {changes : List Transition}
    (h : IsPath source changes target) (hsource : source ≠ .idle)
    (hedge : ∀ change ∈ changes, ∃ earlier step, Edge earlier step change.source change.target) :
    changes.countP Transition.isAttempt = changes.countP Transition.isRetry := by
  induction changes generalizing source with
  | nil => rfl
  | cons change changes ih =>
      obtain ⟨hhead, htail⟩ := h
      obtain ⟨earlier, step, hchange⟩ := hedge change List.mem_cons_self
      have hrest := ih htail hchange.target_ne_idle
        (fun next hnext => hedge next (List.mem_cons_of_mem _ hnext))
      have hsame : change.isAttempt = change.isRetry := by
        by_cases htarget : change.target = .establishing
        · rw [htarget] at hchange
          -- An attempt follows the start or a pause, and a path does not come back to the start.
          rcases hchange.source_of_establishing with hidle | hreconnecting
          · exact absurd (hhead.symm.trans hidle) hsource
          · simp [Transition.isAttempt, Transition.isRetry, htarget, hreconnecting]
        · simp [Transition.isAttempt, Transition.isRetry, htarget]
      rw [List.countP_cons, List.countP_cons, hrest, hsame]

namespace Tally

variable {limit : Nat} {changes first last : List Transition} {life : Life}

theorem retries_le (h : Tally (.bounded limit) 0 changes life)
    (hchanges : changes = first ++ last) : retries first ≤ limit := by
  -- The last of these changes carries the number of retries, and keeps to the limit.
  rcases List.eq_nil_or_concat first with rfl | ⟨init, change, rfl⟩
  · exact Nat.zero_le _
  · rw [List.concat_eq_append, List.append_assoc, List.singleton_append] at hchanges
    have hattempt := h.numbered.attempt_eq hchanges
    have hmem : change ∈ changes := by simp [hchanges]
    have hle := (h.keepsTo change hmem limit rfl).1
    rw [hattempt] at hle
    rw [List.concat_eq_append]
    exact hle

theorem countP_isRetry_le (h : Tally (.bounded limit) 0 changes life) {stretch : List Transition}
    (hchanges : changes = first ++ stretch ++ last)
    (hnone : ∀ change ∈ stretch, change.target ≠ .active) :
    stretch.countP Transition.isRetry ≤ limit := by
  have hle := h.retries_le hchanges
  rw [retries_append, foldl_retriesAfter hnone] at hle
  omega

/-- After a failure that is to be retried comes the next attempt, or the end if that was the
last one. -/
theorem reconnecting_next (h : Tally (.bounded limit) 0 changes life)
    {source target : ConnectionState} (hpath : IsPath source changes target)
    (hedge : ∀ change ∈ changes,
      (∃ earlier step, Edge earlier step change.source change.target) ∧
        change.target ≠ .draining)
    {change next : Transition} (hchanges : changes = first ++ change :: next :: last)
    (hchange : change.target = .reconnecting) :
    (change.attempt < limit ∧ next.target = .establishing ∧
        next.attempt = change.attempt + 1) ∨
      (change.attempt = limit ∧ next.target = .closed ∧ next.attempt = limit) := by
  have hmem : next ∈ changes := by simp [hchanges]
  have hsource : next.source = .reconnecting := by
    rw [hchanges] at hpath
    rw [hpath.source_eq, hchange]
  obtain ⟨⟨earlier, step, hnext⟩, hdraining⟩ := hedge next hmem
  have hkeeps := h.keepsTo next hmem limit rfl
  have hattempt : change.attempt = retries (first ++ [change]) := h.numbered.attempt_eq hchanges
  have hafter : next.attempt = retries (first ++ [change] ++ [next]) := by
    have hsplit : changes = first ++ [change] ++ next :: last := by simp [hchanges]
    exact h.numbered.attempt_eq hsplit
  rw [retries_append, ← hattempt, List.foldl_cons, List.foldl_nil] at hafter
  rw [hsource] at hnext
  rcases hnext.target_of_reconnecting with htarget | htarget | htarget
  · left
    have hretry : next.isRetry = true := by simp [Transition.isRetry, hsource, htarget]
    rw [retriesAfter_of_isRetry hretry] at hafter
    exact ⟨by omega, htarget, hafter⟩
  · exact absurd htarget hdraining
  · right
    have hlimit := hkeeps.2 hsource htarget
    have hsame : next.retriesAfter change.attempt = change.attempt := by
      simp [Transition.retriesAfter, Transition.isRetry, htarget]
    rw [hsame] at hafter
    exact ⟨hafter.symm.trans hlimit, htarget, hlimit⟩

theorem reconnecting_last (h : Tally (.bounded limit) 0 changes life) {source : ConnectionState}
    (hpath : IsPath source changes life.state) {change : Transition}
    (hchanges : changes = first ++ [change]) (hchange : change.target = .reconnecting) :
    change.attempt < limit := by
  have hattempt : change.attempt = retries changes := by
    rw [hchanges]
    exact h.numbered.attempt_eq hchanges
  rw [hchanges] at hpath
  obtain ⟨middle, -, -, hlast⟩ := isPath_append.mp hpath
  have hstate : life.state = .reconnecting := hlast.symm.trans hchange
  have hafter := h.hasRetried
  cases life with
  | unstarted => cases hstate
  | ended failure => cases hstate
  | running run await =>
      -- While it pauses, its budget has one more retry than were reported.
      have hawait : await.state = .reconnecting := hstate
      rw [Life.HasRetried, if_pos hawait] at hafter
      have hle := hafter.used_le limit rfl
      rw [hafter.used_eq] at hle
      rw [hattempt]
      exact hle

end Tally

/-- A connection that has never had a link has made its first attempt and its retries. -/
theorem countP_isAttempt_unlinked {changes : List Transition} {target : ConnectionState}
    (hpath : IsPath .idle changes target) (hidle : target ≠ .idle) (hclosed : target ≠ .closed)
    (hedge : ∀ change ∈ changes, ∃ earlier step, Edge earlier step change.source change.target) :
    changes.countP Transition.isAttempt = changes.countP Transition.isRetry + 1 := by
  cases changes with
  | nil => exact absurd hpath.symm hidle
  | cons change changes =>
      obtain ⟨hsource, htail⟩ := hpath
      obtain ⟨earlier, step, hchange⟩ := hedge change List.mem_cons_self
      have hrest := htail.countP_isAttempt hchange.target_ne_idle
        (fun next hnext => hedge next (List.mem_cons_of_mem _ hnext))
      rw [hsource] at hchange
      -- The first change is the first attempt, since nothing comes after the closed state.
      rcases hchange.target_of_idle with htarget | htarget
      · simp [Transition.isAttempt, Transition.isRetry, hsource, htarget, hrest]
      · rw [htarget] at htail
        cases changes with
        | nil => exact absurd htail.symm hclosed
        | cons next changes =>
            obtain ⟨earlier, step, hnext⟩ := hedge next (by simp)
            exact absurd htail.1 hnext.source_ne_closed

end LiveRelay
