import LiveRelay.Proofs.Config.Buildable
import Mathlib.Tactic.FieldSimp
import Mathlib.Tactic.Ring

/-! # The durations of a valid configuration

The checks are made on the floats, and what runs is a duration, which is a whole number of
nanoseconds. The duration of a valid configuration is always the float rounded, half a
nanosecond away at most, and never an end of the range put in its place. Above zero is another
matter: a timeout above zero is still rounded to none if it is half a nanosecond or less, and
`instant_timeouts` is a valid configuration with two of that kind.
-/

namespace LiveRelay

/-- Whether a whole number is the nearest one to a number, and the even one of two. -/
structure IsRounded (x : ℚ) (n : Nat) : Prop where
  near : |(n : ℚ) - x| ≤ 1 / 2
  even : |(n : ℚ) - x| = 1 / 2 → Even n

/-- One half is rounded down to zero, zero being even. -/
theorem IsRounded.pos_iff {x : ℚ} {n : Nat} (h : IsRounded x n) : 0 < n ↔ 1 / 2 < x := by
  obtain ⟨hlow, hhigh⟩ := abs_le.mp h.near
  constructor
  · intro hpos
    have hone : (1 : ℚ) ≤ n := by exact_mod_cast hpos
    rcases lt_or_ge (1 / 2) x with hx' | hx'
    · exact hx'
    -- Then the number is one half and its rounding is one, which is odd.
    · have hhalf : x = 1 / 2 := by linarith
      have hn : (n : ℚ) = 1 := by linarith
      obtain rfl : n = 1 := by exact_mod_cast hn
      have heven := h.even (by rw [hhalf]; norm_num)
      exact absurd heven (by decide)
  · intro hx'
    rcases Nat.eq_zero_or_pos n with rfl | hpos
    · rw [Nat.cast_zero] at hlow
      linarith
    · exact hpos

theorem isRounded_self (n : Nat) : IsRounded n n := by
  constructor
  · norm_num
  · intro h
    norm_num at h

theorem div_le_half_iff (rest : Nat) {den : Nat} (hden : 0 < den) :
    (rest : ℚ) / den ≤ 1 / 2 ↔ 2 * rest ≤ den := by
  have hpos : (0 : ℚ) < den := by exact_mod_cast hden
  rw [div_le_iff₀ hpos, ← Nat.cast_le (α := ℚ)]
  push_cast
  constructor <;> intro h <;> linarith

theorem half_le_div_iff (rest : Nat) {den : Nat} (hden : 0 < den) :
    1 / 2 ≤ (rest : ℚ) / den ↔ den ≤ 2 * rest := by
  have hpos : (0 : ℚ) < den := by exact_mod_cast hden
  rw [le_div_iff₀ hpos, ← Nat.cast_le (α := ℚ)]
  push_cast
  constructor <;> intro h <;> linarith

/-- What is rounded half to even is rounded in this sense. -/
theorem isRounded_roundHalfEven (num : Nat) {den : Nat} (hden : 0 < den) :
    IsRounded (num / den) (roundHalfEven num den) := by
  have hpos : (0 : ℚ) < den := by exact_mod_cast hden
  have hsplit : (num : ℚ) / den = (num / den : Nat) + (num % den : Nat) / den := by
    field_simp
    exact_mod_cast (Nat.div_add_mod num den).symm
  have hrest : (0 : ℚ) ≤ (num % den : Nat) / den := by positivity
  have hrest' : ((num % den : Nat) : ℚ) / den < 1 := by
    rw [div_lt_one hpos]
    exact_mod_cast Nat.mod_lt num hden
  rw [hsplit]
  unfold roundHalfEven
  dsimp only
  split_ifs with hup
  · have hge := (half_le_div_iff (num % den) hden).mpr (by omega)
    have hdistance : |((num / den + 1 : Nat) : ℚ) -
        ((num / den : Nat) + (num % den : Nat) / den)| = 1 - (num % den : Nat) / den := by
      rw [abs_of_nonneg] <;> push_cast <;> linarith
    constructor <;> rw [hdistance]
    · linarith
    · intro htie
      have hle := (div_le_half_iff (num % den) hden).mp (by linarith)
      rw [Nat.even_add_one, Nat.not_even_iff]
      omega
  · have hle := (div_le_half_iff (num % den) hden).mpr (by omega)
    have hdistance : |((num / den : Nat) : ℚ) -
        ((num / den : Nat) + (num % den : Nat) / den)| = (num % den : Nat) / den := by
      rw [abs_of_nonpos] <;> linarith
    constructor <;> rw [hdistance]
    · exact hle
    · intro htie
      have hge := (half_le_div_iff (num % den) hden).mp htie.ge
      rw [Nat.even_iff]
      omega

theorem roundHalfEven_le (num den : Nat) : roundHalfEven num den ≤ num + 1 := by
  have hquotient := Nat.div_le_self num den
  unfold roundHalfEven
  dsimp only
  split_ifs <;> omega

/-- The mantissa of a number has one bit more than the fraction. -/
theorem FloatFormat.mantissa_lt {format : FloatFormat} {bits : Nat} {negative : Bool}
    {mantissa : Nat} {exponent : Int}
    (h : format.value bits = .finite negative mantissa exponent) :
    mantissa < 2 * Nat.pow 2 format.fractionBits := by
  have hfraction : bits % Nat.pow 2 format.fractionBits < Nat.pow 2 format.fractionBits :=
    Nat.mod_lt _ (Nat.pow_pos (by decide))
  rw [value] at h
  split at h
  · split at h <;> cases h
  · split at h
    · cases h
      omega
    · cases h
      omega

/-- Whether a number of seconds is above half a nanosecond. -/
def Single.IsNoticeable (x : Single) : Prop :=
  ∃ seconds, x.toRat? = some seconds ∧ 1 / 2 < seconds * Duration.nanosPerSecond

namespace Duration

/-- A duration is what a number of seconds says: the number itself converted, and nothing put
in its place. -/
structure Means (span : Duration) (x : Single) : Prop where
  converted : ofSeconds? x = some span
  belowMax : span.nanoseconds < max.nanoseconds
  rounded : ∃ seconds, x.toRat? = some seconds ∧
    IsRounded (seconds * nanosPerSecond) span.nanoseconds

variable {x : Single} {span : Duration}

theorem isRounded_of_nonneg (mantissa : Nat) {exponent : Int} (h : 0 ≤ exponent) :
    IsRounded (mantissa * 2 ^ exponent * nanosPerSecond)
      (mantissa * Nat.pow 2 exponent.toNat * nanosPerSecond) := by
  obtain ⟨n, rfl⟩ := Int.eq_ofNat_of_zero_le h
  convert isRounded_self _
  push_cast
  norm_num

theorem isRounded_of_neg (mantissa : Nat) {exponent : Int} (h : ¬ 0 ≤ exponent) :
    IsRounded (mantissa * 2 ^ exponent * nanosPerSecond)
      (roundHalfEven (mantissa * nanosPerSecond) (Nat.pow 2 (-exponent).toNat)) := by
  obtain ⟨n, hn⟩ := Int.eq_ofNat_of_zero_le (show 0 ≤ -exponent by omega)
  obtain rfl : exponent = -(n : Int) := by omega
  have hround := isRounded_roundHalfEven (mantissa * nanosPerSecond)
    (show 0 < Nat.pow 2 (- -(n : Int)).toNat from Nat.pow_pos (by decide))
  convert hround using 1
  rw [zpow_neg, zpow_natCast, neg_neg, Int.toNat_natCast]
  push_cast
  norm_num
  ring

/-- Whatever can be converted means what it says. -/
theorem means_of_ofSeconds? (h : ofSeconds? x = some span) : span.Means x := by
  have hconverted := h
  unfold ofSeconds? at h
  cases hvalue : x.value with
  | nan => simp [hvalue] at h
  | infinite negative => simp [hvalue] at h
  | finite negative mantissa exponent =>
      have hmantissa := FloatFormat.mantissa_lt hvalue
      simp only [hvalue] at h
      split_ifs at h with hminus hexponent hrange hrange
      all_goals
        have hrat : x.toRat? = some ((mantissa : ℚ) * 2 ^ exponent) := by
          rw [Single.toRat?, hvalue, ← Single.ratOf_of_nonneg hminus]
      -- The seconds are whole, and so are the nanoseconds, or
      · cases h
        refine ⟨hconverted, ?_, _, hrat, isRounded_of_nonneg mantissa hexponent⟩
        simp only [max, secondsLimit, nanosPerSecond, Nat.pow_eq] at hrange ⊢
        omega
      -- they are few enough for a rounding to stay in the range.
      · cases h
        refine ⟨hconverted, ?_, _, hrat, isRounded_of_neg mantissa hexponent⟩
        have hround := roundHalfEven_le (mantissa * nanosPerSecond) (Nat.pow 2 (-exponent).toNat)
        simp only [max, secondsLimit, nanosPerSecond, FloatFormat.single, Nat.pow_eq]
          at hmantissa hround ⊢
        omega

/-- A span that floats can say is not replaced. -/
theorem means_saturating (h : x.IsSpan) : (saturating x).Means x := by
  obtain ⟨span, hspan⟩ := Option.isSome_iff_exists.mp ((Single.isSome_ofSeconds?_iff x).mpr h)
  rw [saturating, hspan]
  exact means_of_ofSeconds? hspan

/-- It is above zero unless the number is rounded down to zero. -/
theorem Means.pos_iff (h : span.Means x) : 0 < span.nanoseconds ↔ x.IsNoticeable := by
  obtain ⟨seconds, hseconds, hrounded⟩ := h.rounded
  rw [hrounded.pos_iff, Single.IsNoticeable, hseconds]
  simp

end Duration

theorem Single.IsPositiveSpan.isSpan {x : Single} (h : x.IsPositiveSpan) : x.IsSpan := by
  obtain ⟨seconds, hseconds, hpos, hrange⟩ := h
  exact ⟨seconds, hseconds, hpos.le, hrange⟩

/-- The durations of a connection mean what its endpoint says. A call is given up at once only
if the time for it is half a nanosecond or less. -/
structure ConnectionConfig.KeepsSpans (connection : ConnectionConfig)
    (endpoint : EndpointConfig) : Prop where
  connectionTimeout : connection.connectionTimeout.Means endpoint.connectionTimeout
  reconnectInterval : connection.reconnectInterval.Means endpoint.reconnectInterval
  pingInterval : connection.pingInterval.Means endpoint.pingInterval
  timeout_pos : 0 < connection.connectionTimeout.nanoseconds ↔
    endpoint.connectionTimeout.IsNoticeable

theorem EndpointConfig.keepsSpans {endpoint : EndpointConfig} (h : endpoint.IsBuildable)
    {connection : ConnectionConfig} (hmem : connection ∈ endpoint.connections) :
    connection.KeepsSpans endpoint := by
  obtain ⟨index, hindex, rfl⟩ := List.mem_mapIdx.mp hmem
  have htimeout : endpoint.connectionTimeout.IsSpan :=
    Single.IsPositiveSpan.isSpan (h .connectionTimeout)
  constructor
  case connectionTimeout => exact Duration.means_saturating htimeout
  case reconnectInterval => exact Duration.means_saturating (h .reconnectInterval)
  case pingInterval => exact Duration.means_saturating (h .pingInterval)
  case timeout_pos => exact (Duration.means_saturating htimeout).pos_iff

namespace Config

variable {config : Config}

/-- The durations of a configuration mean what it says: those of every connection, and the
limit on the run, if there is one. The relay stops at once only if the limit is half a
nanosecond or less. -/
structure KeepsSpans (config : Config) : Prop where
  connections : ∀ server ∈ config.servers, ∀ endpoint ∈ server.endpoints,
    ∀ connection ∈ endpoint.connections, connection.KeepsSpans endpoint
  runTimeout : ∀ span ∈ config.runTimeout, ∃ x ∈ config.timeout, span.Means x ∧
    (0 < span.nanoseconds ↔ x.IsNoticeable)
  isSome_runTimeout : config.runTimeout.isSome = config.timeout.isSome

/-- A valid configuration means what it says. -/
theorem keepsSpans_of_validate (h : config.validate = .ok ()) : config.KeepsSpans := by
  have hbuildable := (validate_spec config).1.mp h
  constructor
  case connections =>
    intro server hserver endpoint hendpoint connection hconnection
    exact EndpointConfig.keepsSpans (hbuildable.endpoints server hserver endpoint hendpoint)
      hconnection
  case runTimeout =>
    intro span hspan
    obtain ⟨x, hx, rfl⟩ := Option.mem_map.mp hspan
    have hmeans := Duration.means_saturating (hbuildable.timeout x hx).isSpan
    exact ⟨x, hx, hmeans, hmeans.pos_iff⟩
  case isSome_runTimeout => exact Option.isSome_map

/-- A client that calls for five seconds, under a relay that runs for one. -/
def brief : Config where
  timeout := some (.ofNat 1)
  servers := [⟨[{ role := .client, direction := .output, addresses := [.plain "a:1"] }]⟩]

theorem brief_keepsSpans : brief.validate = .ok () ∧ brief.KeepsSpans :=
  ⟨by decide +kernel, keepsSpans_of_validate (by decide +kernel)⟩

/-- The least float above zero, as the limit on the run and on every call. -/
def instant : Config where
  timeout := some (.ofBits 1)
  servers :=
    [⟨[{ role := .client, direction := .output, addresses := [.plain "a:1"]
         connectionTimeout := .ofBits 1 }]⟩]

/-- Both limits are above zero and pass, and both are rounded to nothing: the relay stops at
once, and every call times out at once. -/
theorem instant_timeouts :
    instant.validate = .ok () ∧ instant.runTimeout = some .zero ∧
      ∀ server ∈ instant.servers, ∀ endpoint ∈ server.endpoints,
        endpoint.connections.map (·.connectionTimeout) = [.zero] := by
  decide +kernel

end Config

end LiveRelay
