import LiveRelay.Proofs.Connection.Course

/-! # The history of a connection

What happens to a connection is a list of acts, each with the fan-out of its endpoint at
that moment. Nothing is assumed about either, so whatever the network does, and whoever
runs the connection and closes it, is one of these lists. `Connection.history` are the
steps that come of it.
-/

namespace LiveRelay

/-- What a call of `run` returns in an act that takes a connection from one life to another,
if one does. The call that began the run returns when the run ends, with its failure; every
other call returns at once. -/
def Act.returned? : Act → (before after : Life) → Option (Option ConnectionError)
  | .run _ _, .unstarted, .ended failure => some failure
  | .run _ _, .unstarted, _ => none
  | .run _ _, _, _ => some none
  | .poll _ _, .running _ _, .ended failure => some failure
  | _, _, _ => none

/-- An act, and the fan-out of the endpoint when it happens. -/
structure Occasion where
  fanOut : FanOut
  act : Act

/-- A connection to which something happens. -/
structure Step where
  before : Connection
  occasion : Occasion

namespace Step

def fanOut (step : Step) : FanOut := step.occasion.fanOut

def act (step : Step) : Act := step.occasion.act

/-- What the step comes to. -/
def turn (step : Step) : Turn := step.before.act step.fanOut step.act

def after (step : Step) : Connection := step.turn.connection

/-- The changes of state that the step reports. -/
def transitions (step : Step) : List Transition := step.turn.transitions

/-- What a call of `run` returns in this step, if one does. -/
def returned? (step : Step) : Option (Option ConnectionError) :=
  step.act.returned? step.before.life step.after.life

/-- A failure occurs after which the connection is to try again. -/
def FailsToRetry (step : Step) (failure : ConnectionError) : Prop :=
  ∃ run await signal, step.before.life = .running run await ∧
    step.act = .poll false signal ∧ step.before.IsToRetry await signal failure

/-- The link that was up ends in this failure. -/
def LosesLink (step : Step) (failure : ConnectionError) : Prop :=
  ∃ run await signal, step.before.life = .running run await ∧
    step.act = .poll false signal ∧ LinkEnds step.before.config await signal failure

/-- A step of a coherent connection takes one of the courses. -/
theorem course {step : Step} (h : step.before.Coherent) :
    step.before.Course step.fanOut step.act step.transitions step.after.life := by
  obtain ⟨passed, life, hcourse, hgoes⟩ := Connection.act_takesCourse h step.fanOut step.act
  have hpassed : step.transitions = passed := hgoes.transitions_eq
  have hlife : step.after.life = life := hgoes.life_eq
  rw [hpassed, hlife]
  exact hcourse

theorem after_coherent {step : Step} (h : step.before.Coherent) : step.after.Coherent :=
  step.before.act_coherent h step.fanOut step.act

theorem after_config {step : Step} (h : step.before.Coherent) :
    step.after.config = step.before.config := by
  obtain ⟨_, _, -, hgoes⟩ := Connection.act_takesCourse h step.fanOut step.act
  exact hgoes.config_eq

theorem after_framePath {step : Step} (h : step.before.Coherent) :
    step.after.framePath = step.before.framePath := by
  obtain ⟨_, _, -, hgoes⟩ := Connection.act_takesCourse h step.fanOut step.act
  exact hgoes.framePath_eq

end Step

/-- The changes of state that these steps report, in order. -/
def reported (steps : List Step) : List Transition := steps.flatMap Step.transitions

@[simp] theorem reported_append (first second : List Step) :
    reported (first ++ second) = reported first ++ reported second := List.flatMap_append

namespace Connection

/-- The connection after all of this has happened to it. -/
def afterAll (connection : Connection) : List Occasion → Connection
  | [] => connection
  | occasion :: occasions => (Step.mk connection occasion).after.afterAll occasions

/-- The steps that come of what happens to the connection. -/
def history (connection : Connection) : List Occasion → List Step
  | [] => []
  | occasion :: occasions =>
      ⟨connection, occasion⟩ :: (Step.mk connection occasion).after.history occasions

theorem afterAll_append (connection : Connection) (first second : List Occasion) :
    connection.afterAll (first ++ second) = (connection.afterAll first).afterAll second := by
  induction first generalizing connection with
  | nil => rfl
  | cons occasion first ih => exact ih _

theorem history_append (connection : Connection) (first second : List Occasion) :
    connection.history (first ++ second) =
      connection.history first ++ (connection.afterAll first).history second := by
  induction first generalizing connection with
  | nil => rfl
  | cons occasion first ih => exact congrArg (List.cons _) (ih _)

/-- A history divides where the list of what happens does. -/
theorem history_split {connection : Connection} {occasions : List Occasion}
    {earlier later : List Step} {step : Step}
    (h : connection.history occasions = earlier ++ step :: later) :
    ∃ first last, occasions = first ++ step.occasion :: last ∧
      earlier = connection.history first ∧ step.before = connection.afterAll first := by
  induction earlier generalizing connection occasions with
  | nil =>
      cases occasions with
      | nil => cases h
      | cons occasion occasions =>
          rw [history, List.nil_append, List.cons.injEq] at h
          obtain ⟨rfl, -⟩ := h
          exact ⟨[], occasions, rfl, rfl, rfl⟩
  | cons head earlier ih =>
      cases occasions with
      | nil => cases h
      | cons occasion occasions =>
          rw [history, List.cons_append, List.cons.injEq] at h
          obtain ⟨rfl, htail⟩ := h
          obtain ⟨first, last, rfl, rfl, hbefore⟩ := ih htail
          exact ⟨occasion :: first, last, rfl, rfl, hbefore⟩

/-- A history up to one of its steps is a history itself. -/
theorem history_upTo {connection : Connection} {occasions : List Occasion}
    {earlier later : List Step} {step : Step}
    (h : connection.history occasions = earlier ++ step :: later) :
    ∃ first last, occasions = first ++ last ∧ connection.history first = earlier ++ [step] ∧
      connection.afterAll first = step.after := by
  obtain ⟨first, last, rfl, rfl, hbefore⟩ := history_split h
  refine ⟨first ++ [step.occasion], last, List.append_cons .., ?_, ?_⟩
  · rw [history_append, ← hbefore]
    rfl
  · rw [afterAll_append, ← hbefore]
    rfl

/-- What a step keeps is kept by everything that happens. -/
theorem afterAll_induction {motive : Connection → Prop} {connection : Connection}
    (hbegin : motive connection) (hstep : ∀ step : Step, motive step.before → motive step.after)
    (occasions : List Occasion) : motive (connection.afterAll occasions) := by
  induction occasions generalizing connection with
  | nil => exact hbegin
  | cons occasion occasions ih => exact ih (hstep ⟨connection, occasion⟩ hbegin)

/-- A run that has ended is over for good. -/
theorem afterAll_of_ended {connection : Connection} {failure : Option ConnectionError}
    (h : connection.life = .ended failure) (occasions : List Occasion) :
    (connection.afterAll occasions).life = .ended failure :=
  afterAll_induction (motive := fun later => later.life = .ended failure) h
    (fun step hended => act_of_ended hended step.fanOut step.act) occasions

theorem afterAll_coherent {connection : Connection} (h : connection.Coherent)
    (occasions : List Occasion) : (connection.afterAll occasions).Coherent :=
  afterAll_induction h (fun _ => Step.after_coherent) occasions

theorem afterAll_keeps {connection : Connection} (h : connection.Coherent)
    (occasions : List Occasion) :
    (connection.afterAll occasions).config = connection.config ∧
      (connection.afterAll occasions).framePath = connection.framePath := by
  have hall : (connection.afterAll occasions).Coherent ∧
      (connection.afterAll occasions).config = connection.config ∧
      (connection.afterAll occasions).framePath = connection.framePath := by
    apply afterAll_induction (motive := fun later => later.Coherent ∧
      later.config = connection.config ∧ later.framePath = connection.framePath) ⟨h, rfl, rfl⟩
    rintro step ⟨hcoherent, hconfig, hpath⟩
    exact ⟨Step.after_coherent hcoherent, (Step.after_config hcoherent).trans hconfig,
      (Step.after_framePath hcoherent).trans hpath⟩
  exact hall.2

theorem afterAll_config {connection : Connection} (h : connection.Coherent)
    (occasions : List Occasion) : (connection.afterAll occasions).config = connection.config :=
  (afterAll_keeps h occasions).1

theorem afterAll_framePath {connection : Connection} (h : connection.Coherent)
    (occasions : List Occasion) :
    (connection.afterAll occasions).framePath = connection.framePath :=
  (afterAll_keeps h occasions).2

/-- A step of a history begins where what happened before has led. -/
theorem before_eq_afterAll {connection : Connection} {occasions : List Occasion} {step : Step}
    (hstep : step ∈ connection.history occasions) :
    ∃ first, step.before = connection.afterAll first := by
  obtain ⟨earlier, later, hsteps⟩ := List.append_of_mem hstep
  obtain ⟨first, last, -, -, hbefore⟩ := history_split hsteps
  exact ⟨first, hbefore⟩

theorem before_coherent {connection : Connection} (h : connection.Coherent)
    {occasions : List Occasion} {step : Step} (hstep : step ∈ connection.history occasions) :
    step.before.Coherent := by
  obtain ⟨first, hbefore⟩ := before_eq_afterAll hstep
  rw [hbefore]
  exact afterAll_coherent h first

theorem ofConfig_coherent (parent : ComponentPath) (config : ConnectionConfig)
    (framePath : FramePath) : (ofConfig parent config framePath).Coherent := rfl

end Connection

end LiveRelay
