/-! # Connection states and the retry budget -/

namespace LiveRelay

/-- Where a connection is in its life. -/
inductive ConnectionState where
  /-- Built, not run yet. -/
  | idle
  /-- Dialling, or binding and accepting. -/
  | establishing
  /-- A link is up. -/
  | active
  /-- Waiting out the reconnect interval after a failure. -/
  | reconnecting
  /-- Letting go of listener and link. -/
  | draining
  | closed
  deriving DecidableEq

namespace ConnectionState

/-- The states in the order of a life. -/
def all : List ConnectionState := [idle, establishing, active, reconnecting, draining, closed]

def name : ConnectionState → String
  | idle => "idle"
  | establishing => "establishing"
  | active => "active"
  | reconnecting => "reconnecting"
  | draining => "draining"
  | closed => "closed"

def isClosed (state : ConnectionState) : Bool := state == closed

end ConnectionState

/-- How often a connection may retry between two established links. -/
inductive ReconnectPolicy where
  | unlimited
  | bounded (limit : Nat)
  deriving DecidableEq

/-- A configured count of zero means no limit. -/
def ReconnectPolicy.ofCount (count : Nat) : ReconnectPolicy :=
  if count = 0 then .unlimited else .bounded count

/-- The retries used since the last established link. -/
structure RetryBudget where
  policy : ReconnectPolicy
  used : Nat := 0
  deriving DecidableEq

namespace RetryBudget

/-- The count of an unlimited budget stays here. -/
def maxUsed : Nat := Nat.pow 2 32 - 1

/-- Takes one retry; `none` once the budget is spent. -/
def consume? (budget : RetryBudget) : Option RetryBudget :=
  match budget.policy with
  | .unlimited => some { budget with used := min (budget.used + 1) maxUsed }
  | .bounded limit =>
      if budget.used < limit then some { budget with used := budget.used + 1 } else none

/-- Tries to take `times` retries, one after the other, and counts those that were granted. -/
def consumeMany (budget : RetryBudget) (times : Nat) : Nat × RetryBudget :=
  match budget.policy with
  | .unlimited => (times, { budget with used := min (budget.used + times) maxUsed })
  | .bounded limit =>
      let granted := min times (limit - budget.used)
      (granted, { budget with used := budget.used + granted })

/-- Trying once more is trying once, and then the other times if that was granted. -/
theorem consumeMany_succ (budget : RetryBudget) (times : Nat) :
    budget.consumeMany (times + 1) =
      match budget.consume? with
      | none => (0, budget)
      | some next => ((next.consumeMany times).1 + 1, (next.consumeMany times).2) := by
  obtain ⟨policy, used⟩ := budget
  cases policy with
  | unlimited =>
      simp only [consumeMany, consume?, Prod.mk.injEq, mk.injEq, true_and]
      omega
  | bounded limit =>
      by_cases hused : used < limit
      · simp only [consumeMany, consume?, hused, if_true, Prod.mk.injEq, mk.injEq, true_and]
        omega
      · have : limit - used = 0 := by omega
        simp [consumeMany, consume?, hused, this]

/-- Restores the budget after an established link. -/
def reset (budget : RetryBudget) : RetryBudget := { budget with used := 0 }

end RetryBudget

end LiveRelay
