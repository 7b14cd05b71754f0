import LiveRelay.Proofs.Config.Seconds
import Mathlib.Data.List.Basic
import Mathlib.Tactic.Common

/-! # The settings of an endpoint

Each check of an endpoint finds one fault. What an endpoint must be like to be free of it is
said here beside the check, so that an endpoint that passes them all can be told without
them, and the fault of another is the first in their order that it is not free of.
-/

namespace LiveRelay

/-- The checks of an endpoint in their order, each named after the fault that it finds. -/
def EndpointFault.inOrder : List EndpointFault :=
  [.noAddresses, .emptyAddress, .bufferSize, .queueCapacity, .connectionTimeout,
    .reconnectInterval, .pingInterval]

theorem EndpointFault.mem_inOrder (fault : EndpointFault) : fault ∈ inOrder := by
  cases fault <;> decide

namespace EndpointConfig

variable {config : EndpointConfig}

/-- What an endpoint must be like to be free of a fault. -/
def Avoids (config : EndpointConfig) : EndpointFault → Prop
  | .noAddresses => config.addresses ≠ []
  | .emptyAddress => ∀ entry ∈ config.addresses, ∃ c ∈ entry.address.toList, ¬ Text.isBlank c
  | .bufferSize => 0 < config.bufferSize
  | .queueCapacity => 0 < config.queueCapacity
  | .connectionTimeout => config.connectionTimeout.IsPositiveSpan
  | .reconnectInterval => config.reconnectInterval.IsSpan
  | .pingInterval => config.pingInterval.IsSpan

/-- Whether the settings of an endpoint can be those of running connections. -/
def IsBuildable (config : EndpointConfig) : Prop := ∀ fault, config.Avoids fault

/-- The fault that the checks of an endpoint come across first. -/
def FirstFault (config : EndpointConfig) (fault : EndpointFault) : Prop :=
  ∃ earlier later, EndpointFault.inOrder = earlier ++ fault :: later ∧
    (∀ other ∈ earlier, config.Avoids other) ∧ ¬ config.Avoids fault

/-- The check that finds a fault, as it is made. -/
def passes (config : EndpointConfig) : EndpointFault → Bool
  | .noAddresses => !config.addresses.isEmpty
  | .emptyAddress => !config.addresses.any (Text.isBlankText ·.address)
  | .bufferSize => config.bufferSize != 0
  | .queueCapacity => config.queueCapacity != 0
  | .connectionTimeout => config.connectionTimeout.isPositiveSpan
  | .reconnectInterval => config.reconnectInterval.isSpan
  | .pingInterval => config.pingInterval.isSpan

theorem passes_iff (config : EndpointConfig) (fault : EndpointFault) :
    config.passes fault = true ↔ config.Avoids fault := by
  cases fault with
  | noAddresses => simp [passes, Avoids]
  | emptyAddress => simp [passes, Avoids, Text.isBlankText]
  | bufferSize => simp [passes, Avoids, Nat.pos_iff_ne_zero]
  | queueCapacity => simp [passes, Avoids, Nat.pos_iff_ne_zero]
  | connectionTimeout => exact Single.isPositiveSpan_iff _
  | reconnectInterval => exact Single.isSpan_iff _
  | pingInterval => exact Single.isSpan_iff _

theorem flatMap_passes (config : EndpointConfig) (checks : List EndpointFault) :
    (checks.flatMap fun fault => if config.passes fault then [] else [fault]) =
      checks.filter (!config.passes ·) := by
  induction checks with
  | nil => rfl
  | cons fault checks ih =>
      rw [List.flatMap_cons, List.filter_cons, ih]
      cases config.passes fault <;> rfl

/-- The faults of an endpoint are those that it does not avoid, in the order of the checks. -/
theorem faults_eq (config : EndpointConfig) :
    config.faults = EndpointFault.inOrder.filter (!config.passes ·) := by
  rw [← flatMap_passes]
  simp only [faults, EndpointFault.inOrder, List.flatMap_cons, List.flatMap_nil, passes,
    List.append_assoc, List.append_nil]
  rfl

theorem faults_eq_nil_iff (config : EndpointConfig) :
    config.faults = [] ↔ config.IsBuildable := by
  rw [faults_eq, List.filter_eq_nil_iff]
  constructor
  · intro h fault
    rw [← passes_iff]
    simpa using h fault fault.mem_inOrder
  · intro h fault _
    simpa using (config.passes_iff fault).mpr (h fault)

theorem head_faults_iff (config : EndpointConfig) (fault : EndpointFault) :
    config.faults.head? = some fault ↔ config.FirstFault fault := by
  rw [faults_eq, List.head?_filter, List.find?_eq_some_iff_append]
  unfold FirstFault
  simp only [Bool.not_eq_eq_eq_not, Bool.not_true, Bool.not_not, passes_iff,
    ← Bool.not_eq_true]
  tauto

end EndpointConfig

end LiveRelay
