import Mathlib.Algebra.BigOperators.Group.List.Defs
import Mathlib.Data.List.TakeWhile
import LiveRelay.Proofs.Connection.Counters
import LiveRelay.Proofs.Connection.History
import LiveRelay.Proofs.Connection.Stream

/-! # The links of a history

A connection has one link after the other, and what it does is mostly a matter of one of
them. `links` are the steps of each link in the history of a connection. Every step that finds
a link up belongs to one of them (`flatten_links`), and those of one link are a history of
their own, which begins with a link that has just come up (`history_of_mem_links`).
-/

namespace LiveRelay

namespace Life

theorem inHand_of_link?_eq_none {life : Life} (h : life.link? = none) : life.inHand = [] := by
  cases life with
  | unstarted => rfl
  | ended => rfl
  | running run await => cases await <;> first | rfl | cases h

end Life

namespace Step

/-- The failure is reported in the step, with a change of state. -/
def Reports (step : Step) (failure : ConnectionError) : Prop :=
  ∃ change ∈ step.transitions, change.failure = some failure

/-- What happens to frames in the step. -/
def handling (step : Step) : Handling := step.before.handling step.fanOut step.act

/-- What goes over the link in the step. -/
def traffic (step : Step) : Traffic := step.before.traffic step.act

/-- A link is up when the step begins. -/
def isLinked (step : Step) : Bool := step.before.life.link?.isSome

/-- A link comes up in the step. -/
def opensLink (step : Step) : Bool := step.traffic.opened != 0

theorem flows (step : Step) :
    Flow step.before.config.codec step.before.framePath step.fanOut step.before.life.link?
      step.traffic step.handling step.after.life.link? :=
  step.before.act_flows step.fanOut step.act

theorem counted (step : Step) :
    step.before.Counted step.fanOut step.traffic step.handling step.after.stats :=
  step.before.act_counted step.fanOut step.act

theorem handled (step : Step) : step.before.Handled step.fanOut step.handling step.turn :=
  step.before.act_handled step.fanOut step.act

variable {step : Step}

theorem isLinked_eq_false : step.isLinked = false ↔ step.before.life.link? = none := by
  rw [isLinked, Option.isSome_eq_false_iff, Option.isNone_iff_eq_none]

/-- A link comes up only where there is none. -/
theorem link?_of_opensLink (h : step.opensLink = true) :
    step.before.life.link? = none ∧
      step.after.life.link? =
        some (.opening step.before.config.codec step.before.framePath) := by
  have hflow := step.flows
  generalize hbefore : step.before.life.link? = before at hflow ⊢
  generalize hafter : step.after.life.link? = after at hflow ⊢
  unfold opensLink at h
  generalize step.traffic = traffic at h hflow
  generalize step.handling = handling at hflow
  cases hflow with
  | opens => exact ⟨rfl, rfl⟩
  | _ => cases h

theorem opensLink_of_isLinked (h : step.isLinked = true) : step.opensLink = false := by
  by_contra hopens
  rw [Bool.not_eq_false] at hopens
  rw [isLinked, (link?_of_opensLink hopens).1] at h
  cases h

/-- Without a link nothing is done with frames, and one is only there when it has come up. -/
theorem of_isLinked_eq_false (h : step.isLinked = false) :
    step.handling = {} ∧ step.traffic.read = [] ∧ step.traffic.sent = .empty ∧
      (step.opensLink = false → step.after.life.link? = none) := by
  rw [isLinked_eq_false] at h
  have hflow := step.flows
  have hhandled := step.handled.inHand_eq
  rw [Life.inHand_of_link?_eq_none h, List.nil_append] at hhandled
  rw [h] at hflow
  unfold opensLink
  generalize hafter : step.after.life.link? = after at hflow ⊢
  generalize step.traffic = traffic at hflow ⊢
  generalize step.handling = handling at hflow hhandled ⊢
  cases hflow with
  | rests => exact ⟨rfl, rfl, rfl, fun _ => rfl⟩
  | opens => exact ⟨rfl, rfl, rfl, nofun⟩
  | ends lost interrupted =>
      -- There was no frame in hand that could be given up.
      simp only [List.nil_append, List.append_nil, List.nil_eq, List.append_eq_nil_iff] at hhandled
      obtain ⟨⟨rfl, rfl⟩, -⟩ := hhandled
      exact ⟨rfl, rfl, rfl, fun _ => rfl⟩

/-- The failure of a link is only reported where the link ends in it. -/
theorem losesLink_of_reports {failure : ConnectionError} (hcoherent : step.before.Coherent)
    (h : step.Reports failure) (hfailure : failure.isLinkFailure = true) :
    step.LosesLink failure := by
  have hcourse := step.course hcoherent
  obtain ⟨change, hchange, hreports⟩ := h
  generalize hact : step.act = act at hcourse
  generalize hpassed : step.transitions = passed at hcourse hchange
  generalize hlife : step.after.life = life at hcourse
  have hretry : ∀ {run : Run} {await : Await} {signal : Signal} {first : ConnectionError},
      step.before.life = .running run await → act = .poll false signal →
      step.before.IsToRetry await signal first → some first = some failure →
      step.LosesLink failure := by
    rintro run await signal first hrunning rfl hretry hsame
    obtain rfl := Option.some.inj hsame
    rcases hretry with hfails | ⟨hends, -⟩
    · have hestablish := hfails.isEstablishFailure
      cases first <;> simp_all [ConnectionError.isEstablishFailure, ConnectionError.isLinkFailure]
    · exact ⟨run, await, signal, hrunning, hact, hends⟩
  cases hcourse with
  | failed hrunning hfails hbudget =>
      obtain rfl := List.mem_singleton.mp hchange
      exact hretry hrunning rfl hfails hreports
  | exhausted hrunning hfails hbudget =>
      rcases List.mem_cons.mp hchange with rfl | hlast
      · exact hretry hrunning rfl hfails hreports
      · obtain rfl := List.mem_singleton.mp hlast
        cases hreports
        cases hfailure
  | singleShotOver hrunning hsingle hends =>
      obtain rfl := List.mem_singleton.mp hchange
      refine ⟨_, _, _, hrunning, hact, ?_⟩
      cases hends <;> cases hreports <;> constructor <;> assumption
  -- No other step reports any failure.
  | _ => grind

end Step

/-- The steps of every link: from the one after it has come up to the one in which it ends. -/
def links : List Step → List (List Step)
  | [] => []
  | step :: steps =>
      if step.opensLink then steps.takeWhile Step.isLinked :: links steps else links steps

namespace Connection

theorem takeWhile_history (connection : Connection) (occasions : List Occasion)
    (isGood : Step → Bool) :
    ∃ during later, occasions = during ++ later ∧
      (connection.history occasions).takeWhile isGood = connection.history during := by
  induction occasions generalizing connection with
  | nil => exact ⟨[], [], rfl, rfl⟩
  | cons occasion occasions ih =>
      rw [history, List.takeWhile_cons]
      split_ifs with hgood
      · obtain ⟨during, later, rfl, hsame⟩ := ih (Step.mk connection occasion).after
        exact ⟨occasion :: during, later, rfl, congrArg (List.cons _) hsame⟩
      · exact ⟨[], occasion :: occasions, rfl, rfl⟩

/-- A connection without a link has none up in its next step. -/
theorem takeWhile_of_link?_eq_none {connection : Connection} (h : connection.life.link? = none)
    (occasions : List Occasion) :
    (connection.history occasions).takeWhile Step.isLinked = [] := by
  cases occasions with
  | nil => rfl
  | cons occasion occasions =>
      rw [history, List.takeWhile_cons_of_neg]
      rw [Step.isLinked, h]
      exact Bool.false_ne_true

/-- The steps with which a history begins may go on with a link that is up already; all others
that find one up belong to a link of the history. -/
theorem takeWhile_append_links (connection : Connection) (occasions : List Occasion) :
    (connection.history occasions).takeWhile Step.isLinked ++
        (links (connection.history occasions)).flatten =
      (connection.history occasions).filter Step.isLinked := by
  induction occasions generalizing connection with
  | nil => rfl
  | cons occasion occasions ih =>
      rw [history]
      generalize hstep : Step.mk connection occasion = step
      have hrest := ih step.after
      rw [links, List.takeWhile_cons, List.filter_cons]
      cases hlinked : step.isLinked with
      | true =>
          rw [Step.opensLink_of_isLinked hlinked, if_neg Bool.false_ne_true, if_pos rfl,
            if_pos rfl, List.cons_append, hrest]
      | false =>
          rw [if_neg Bool.false_ne_true, if_neg Bool.false_ne_true, List.nil_append, ← hrest]
          cases hopens : step.opensLink with
          | true => rw [if_pos rfl, List.flatten_cons]
          | false =>
              -- The next step finds no link either.
              have hnone := (Step.of_isLinked_eq_false hlinked).2.2.2 hopens
              rw [if_neg Bool.false_ne_true, takeWhile_of_link?_eq_none hnone, List.nil_append]

/-- Every step that finds a link up belongs to one of the links. -/
theorem flatten_links {connection : Connection} (h : connection.life.link? = none)
    (occasions : List Occasion) :
    (links (connection.history occasions)).flatten =
      (connection.history occasions).filter Step.isLinked := by
  rw [← takeWhile_append_links, takeWhile_of_link?_eq_none h, List.nil_append]

/-- What is done with frames and bytes is done by one link after the other. -/
theorem flatMap_links {Item : Type} {connection : Connection}
    (h : connection.life.link? = none) (occasions : List Occasion) {items : Step → List Item}
    (hidle : ∀ step : Step, step.isLinked = false → items step = []) :
    (links (connection.history occasions)).flatMap (·.flatMap items) =
      (connection.history occasions).flatMap items := by
  have hfilter : ∀ steps : List Step, (steps.filter Step.isLinked).flatMap items =
      steps.flatMap items := by
    intro steps
    induction steps with
    | nil => rfl
    | cons step steps ih =>
        rw [List.filter_cons, List.flatMap_cons]
        split_ifs with hlinked
        · rw [List.flatMap_cons, ih]
        · rw [ih, hidle step (Bool.not_eq_true _ ▸ hlinked), List.nil_append]
  rw [← hfilter, ← flatten_links h, ← List.flatMap_id, List.flatMap_assoc]
  rfl

/-- What is counted is counted by one link after the other. -/
theorem sum_links {connection : Connection} (h : connection.life.link? = none)
    (occasions : List Occasion) (gain : Step → Nat)
    (hidle : ∀ step : Step, step.isLinked = false → gain step = 0) :
    ((links (connection.history occasions)).map fun link => (link.map gain).sum).sum =
      ((connection.history occasions).map gain).sum := by
  have hfilter : ∀ steps : List Step, ((steps.filter Step.isLinked).map gain).sum =
      (steps.map gain).sum := by
    intro steps
    induction steps with
    | nil => rfl
    | cons step steps ih =>
        rw [List.filter_cons, List.map_cons, List.sum_cons]
        split_ifs with hlinked
        · rw [List.map_cons, List.sum_cons, ih]
        · rw [ih, hidle step (Bool.not_eq_true _ ▸ hlinked), Nat.zero_add]
  rw [← hfilter, ← flatten_links h, List.map_flatten, List.sum_flatten, List.map_map]
  rfl

theorem length_links (steps : List Step) :
    (links steps).length = (steps.map (·.traffic.opened)).sum := by
  have hone : ∀ step : Step, step.traffic.opened = if step.opensLink then 1 else 0 := by
    intro step
    have hflow := step.flows
    unfold Step.opensLink
    generalize step.before.life.link? = before at hflow
    generalize step.after.life.link? = after at hflow
    generalize step.traffic = traffic at hflow ⊢
    generalize step.handling = handling at hflow
    cases hflow <;> rfl
  induction steps with
  | nil => rfl
  | cons step steps ih =>
      rw [links, List.map_cons, List.sum_cons, hone, ← ih]
      split_ifs
      · rw [List.length_cons, Nat.add_comm]
      · exact (Nat.zero_add _).symm

/-- A counter that every step adds to has the sum of that in the end. -/
theorem afterAll_total (count : Connection → Nat) {gain : Step → Nat} (connection : Connection)
    (occasions : List Occasion)
    (h : ∀ step ∈ connection.history occasions, count step.after = count step.before + gain step) :
    count (connection.afterAll occasions) =
      count connection + ((connection.history occasions).map gain).sum := by
  induction occasions generalizing connection with
  | nil => rfl
  | cons occasion occasions ih =>
      have hfirst := h ⟨connection, occasion⟩ List.mem_cons_self
      have hrest := ih (Step.mk connection occasion).after fun step hstep =>
        h step (List.mem_cons_of_mem _ hstep)
      rw [afterAll, hrest, hfirst, history, List.map_cons, List.sum_cons, Nat.add_assoc]

/-- The link of a source is read from, and that of a sink is written to. -/
theorem fits_afterAll {connection : Connection} (hcoherent : connection.Coherent)
    (h : ∀ await ∈ connection.life.link?, await.Fits connection.framePath)
    (occasions : List Occasion) :
    ∀ await ∈ (connection.afterAll occasions).life.link?, await.Fits connection.framePath := by
  have hall : (connection.afterAll occasions).Coherent ∧
      (connection.afterAll occasions).framePath = connection.framePath ∧
      ∀ await ∈ (connection.afterAll occasions).life.link?, await.Fits connection.framePath := by
    apply afterAll_induction (motive := fun later => later.Coherent ∧
      later.framePath = connection.framePath ∧
      ∀ await ∈ later.life.link?, await.Fits connection.framePath) ⟨hcoherent, rfl, h⟩
    rintro step ⟨hbefore, hpath, hfits⟩
    refine ⟨Step.after_coherent hbefore, (Step.after_framePath hbefore).trans hpath, ?_⟩
    have hflow := step.flows
    rw [hpath] at hflow
    exact hflow.fits hfits
  exact hall.2.2

/-- Where every step finds a link up, and there is none, nothing happens. -/
theorem eq_nil_of_isLinked {connection : Connection} {occasions : List Occasion}
    (h : connection.life.link? = none)
    (hlinked : ∀ step ∈ connection.history occasions, step.isLinked = true) : occasions = [] := by
  cases occasions with
  | nil => rfl
  | cons occasion occasions =>
      have hfirst := hlinked ⟨connection, occasion⟩ List.mem_cons_self
      rw [Step.isLinked, h] at hfirst
      cases hfirst

/-- The steps of a link are what happens from its coming up on, as long as it is up. -/
theorem history_of_mem_links {connection : Connection} (hcoherent : connection.Coherent)
    {occasions : List Occasion} {steps : List Step}
    (h : steps ∈ links (connection.history occasions)) :
    ∃ earlier during later, occasions = earlier ++ during ++ later ∧
      steps = (connection.afterAll earlier).history during ∧
      (connection.afterAll earlier).life.link? =
        some (.opening connection.config.codec connection.framePath) ∧
      ∀ step ∈ steps, step.isLinked = true := by
  induction occasions generalizing connection with
  | nil => cases h
  | cons occasion occasions ih =>
      rw [history, links] at h
      generalize hstep : Step.mk connection occasion = step at h
      obtain ⟨rfl, rfl⟩ : step.before = connection ∧ step.occasion = occasion := by
        rw [← hstep]
        exact ⟨rfl, rfl⟩
      have hcases : (step.opensLink = true ∧
          steps = (step.after.history occasions).takeWhile Step.isLinked) ∨
            steps ∈ links (step.after.history occasions) := by
        split_ifs at h with hopens
        · exact (List.mem_cons.mp h).imp_left fun hsteps => ⟨hopens, hsteps⟩
        · exact .inr h
      rcases hcases with ⟨hopens, rfl⟩ | hlater
      · obtain ⟨during, later, rfl, hsteps⟩ :=
          step.after.takeWhile_history occasions Step.isLinked
        exact ⟨[step.occasion], during, later, rfl, hsteps, (Step.link?_of_opensLink hopens).2,
          fun _ => List.mem_takeWhile_imp⟩
      · obtain ⟨earlier, during, later, rfl, hsteps, hlink, hlinked⟩ :=
          ih (Step.after_coherent hcoherent) hlater
        refine ⟨step.occasion :: earlier, during, later, rfl, hsteps, ?_, hlinked⟩
        rw [← Step.after_config hcoherent, ← Step.after_framePath hcoherent]
        exact hlink

end Connection

end LiveRelay
