import LiveRelay.Proofs.Connection.Pace
import LiveRelay.Proofs.Connection.Retries
import LiveRelay.Simulation.Network

/-! # Connections by the clock

A connection dials and pauses by the clock. What happens to it is a list of moments, and its
`Timeline` keeps what it has reported and asked for, and when. By an ideal clock nothing that is
due waits, and a call or a pause ends just when it is over: `IsPunctual`. Nothing is assumed about
anything else that happens.
-/

namespace LiveRelay

/-- Something, and the nanosecond in which it happens. -/
structure Timed (α : Type) where
  time : Nat
  event : α

/-- A connection by now, with all that it has reported and asked for. -/
structure Timeline where
  connection : Connection
  now : Nat := 0
  passed : List (Timed Transition) := []
  asked : List (Timed Request) := []

/-- How many attempts to get a link have begun. -/
def attempts (passed : List (Timed Transition)) : Nat := passed.countP (·.event.isAttempt)

/-- Whether the signal is for a call or for a pause. -/
def Signal.isTimed : Signal → Bool
  | .dialled _ => true
  | .timedOut => true
  | .rested => true
  | _ => false

/-- Everything in the list is allowed after what is before it. -/
def Chained {α : Type} (allowed : List α → α → Prop) (items : List α) : Prop :=
  ∀ first item last, items = first ++ item :: last → allowed first item

namespace Timeline

/-- What there is once this has happened. -/
def next (timeline : Timeline) (moment : Timed Occasion) : Timeline :=
  let step : Step := ⟨timeline.connection, moment.event⟩
  { connection := step.after
    now := moment.time
    passed := timeline.passed ++ step.transitions.map (Timed.mk moment.time)
    asked := timeline.asked ++ step.turn.requests.map (Timed.mk moment.time) }

/-- What there is once all of this has happened. -/
def afterAll (timeline : Timeline) (moments : List (Timed Occasion)) : Timeline :=
  moments.foldl next timeline

/-- The answer that is there by `time` to a call or for a pause, when the call of the `n`-th
attempt goes as `calls n` says. A call has until the end of its time to come through. -/
def answer? (calls : Nat → Attempt Unit) (timeline : Timeline) (time : Nat) : Option Signal :=
  match timeline.connection.life, timeline.asked.getLast? with
  | .running _ .dialling, some ⟨since, .dial timeout⟩ =>
      match (calls (attempts timeline.passed)).outcome? since time with
      | some outcome => some (.dialled outcome)
      | none => if since + timeout.nanoseconds ≤ time then some .timedOut else none
  | .running _ .pausing, some ⟨since, .pause span⟩ =>
      if since + span.nanoseconds ≤ time then some .rested else none
  | _, _ => none

/-- The connection can wait until `time`: nothing is due before. -/
structure Waits (calls : Nat → Attempt Unit) (timeline : Timeline) (time : Nat) : Prop where
  now_le : timeline.now ≤ time
  answer?_eq : ∀ earlier < time, timeline.answer? calls earlier = none

/-- What happens, happens in time, and what is said of a call or a pause is the case. -/
structure Meets (calls : Nat → Attempt Unit) (timeline : Timeline) (moment : Timed Occasion) :
    Prop where
  waits : timeline.Waits calls moment.time
  answers : ∀ signal, moment.event.act = .poll false signal → signal.isTimed = true →
    timeline.answer? calls moment.time = some signal

/-- All of this happens by an ideal clock, and until `finish` there is nothing else to do. -/
def IsPunctual (calls : Nat → Attempt Unit) (finish : Nat) :
    Timeline → List (Timed Occasion) → Prop
  | timeline, [] => timeline.Waits calls finish
  | timeline, moment :: moments =>
      timeline.Meets calls moment ∧ IsPunctual calls finish (timeline.next moment) moments

end Timeline

theorem chained_nil {α : Type} (allowed : List α → α → Prop) : Chained allowed [] := by
  intro first item last h
  simp at h

theorem Chained.concat {α : Type} {allowed : List α → α → Prop} {items : List α} {item : α}
    (h : Chained allowed items) (hallowed : allowed items item) :
    Chained allowed (items ++ [item]) := by
  intro first other last hitems
  rcases List.eq_nil_or_concat last with rfl | ⟨rest, final, rfl⟩
  · obtain ⟨hfirst, hother⟩ := List.append_inj' hitems rfl
    cases hfirst
    cases hother
    exact hallowed
  · apply h first other rest
    rw [List.concat_eq_append, ← List.cons_append, ← List.append_assoc] at hitems
    exact (List.append_inj' hitems rfl).1

theorem Attempt.outcome?_of_le {α : Type} {attempt : Attempt α} {started now later : Nat}
    {outcome : Except String α} (h : attempt.outcome? started now = some outcome)
    (hle : now ≤ later) : attempt.outcome? started later = some outcome := by
  cases attempt with
  | hangs => cases h
  | ends delay result =>
      simp only [Attempt.outcome?] at h ⊢
      split_ifs at h with hdue
      rw [if_pos (Nat.le_trans hdue hle)]
      exact h

namespace Timeline

variable {calls : Nat → Attempt Unit} {timeline : Timeline} {run : Run} {since time : Nat}
  {signal : Signal} {timeout span : Duration}

section Answer

theorem answer?_of_dialling (hlife : timeline.connection.life = .running run .dialling)
    (hasked : timeline.asked.getLast? = some ⟨since, .dial timeout⟩) (time : Nat) :
    timeline.answer? calls time =
      match (calls (attempts timeline.passed)).outcome? since time with
      | some outcome => some (.dialled outcome)
      | none => if since + timeout.nanoseconds ≤ time then some .timedOut else none := by
  rw [answer?, hlife, hasked]

theorem answer?_of_pausing (hlife : timeline.connection.life = .running run .pausing)
    (hasked : timeline.asked.getLast? = some ⟨since, .pause span⟩) (time : Nat) :
    timeline.answer? calls time =
      if since + span.nanoseconds ≤ time then some .rested else none := by
  rw [answer?, hlife, hasked]

/-- A call does not take longer than its time. -/
theorem Waits.le_of_dialling (h : timeline.Waits calls time)
    (hlife : timeline.connection.life = .running run .dialling)
    (hasked : timeline.asked.getLast? = some ⟨since, .dial timeout⟩) :
    time ≤ since + timeout.nanoseconds := by
  by_contra hlate
  have hdue := h.answer?_eq (since + timeout.nanoseconds) (Nat.lt_of_not_le hlate)
  rw [answer?_of_dialling hlife hasked] at hdue
  split at hdue
  next => cases hdue
  next =>
    rw [if_pos (Nat.le_refl _)] at hdue
    cases hdue

/-- A call comes to its end in time, or it is given up just when its time is over. -/
theorem Waits.dialling_ends (h : timeline.Waits calls time)
    (hlife : timeline.connection.life = .running run .dialling)
    (hasked : timeline.asked.getLast? = some ⟨since, .dial timeout⟩)
    (hanswer : timeline.answer? calls time = some signal) :
    let call := calls (attempts timeline.passed)
    (∃ outcome, signal = .dialled outcome ∧
        call.outcome? since (since + timeout.nanoseconds) = some outcome) ∨
      signal = .timedOut ∧ time = since + timeout.nanoseconds ∧
        call.outcome? since (since + timeout.nanoseconds) = none := by
  intro call
  have hle := h.le_of_dialling hlife hasked
  rw [answer?_of_dialling hlife hasked] at hanswer
  split at hanswer
  next outcome houtcome =>
    cases hanswer
    exact .inl ⟨outcome, rfl, Attempt.outcome?_of_le houtcome hle⟩
  next hunfinished =>
    split_ifs at hanswer with hdue
    cases hanswer
    obtain rfl := Nat.le_antisymm hle hdue
    exact .inr ⟨rfl, rfl, hunfinished⟩

/-- A pause ends just when it is over. -/
theorem Waits.pausing_ends (h : timeline.Waits calls time)
    (hlife : timeline.connection.life = .running run .pausing)
    (hasked : timeline.asked.getLast? = some ⟨since, .pause span⟩)
    (hanswer : timeline.answer? calls time = some .rested) :
    since + span.nanoseconds = time := by
  rw [answer?_of_pausing hlife hasked] at hanswer
  split_ifs at hanswer with hdue
  by_contra hne
  have hearly := h.answer?_eq (since + span.nanoseconds) (Nat.lt_of_le_of_ne hdue hne)
  rw [answer?_of_pausing hlife hasked, if_pos (Nat.le_refl _)] at hearly
  cases hearly

end Answer

end Timeline

end LiveRelay
