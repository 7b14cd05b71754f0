import LiveRelay.Config.Validation
import Mathlib.Algebra.Order.Field.Power
import Mathlib.Tactic.Linarith
import Mathlib.Tactic.NormNum
import Mathlib.Tactic.Positivity

/-! # The numbers of seconds that are spans of time

A float stands for a rational number, unless it is an infinity or no number. A duration can
be made of it when this number is not negative and below the end of the range. Rounding to
whole nanoseconds does not come into it: zero is tested before, and the range ends where
floats are whole numbers.
-/

namespace LiveRelay

namespace Single

/-- The number `±mantissa * 2 ^ exponent`. -/
def ratOf (negative : Bool) (mantissa : Nat) (exponent : Int) : ℚ :=
  if negative then -(mantissa * 2 ^ exponent) else mantissa * 2 ^ exponent

/-- The number that a float stands for; infinities and NaN stand for none. -/
def toRat? (x : Single) : Option ℚ :=
  match x.value with
  | .nan => none
  | .infinite _ => none
  | .finite negative mantissa exponent => some (ratOf negative mantissa exponent)

/-- Whether the float is a number of seconds that a duration can hold. -/
def IsSpan (x : Single) : Prop :=
  ∃ seconds, x.toRat? = some seconds ∧ 0 ≤ seconds ∧ seconds < 2 ^ 64

/-- Whether it is one, and above zero. -/
def IsPositiveSpan (x : Single) : Prop :=
  ∃ seconds, x.toRat? = some seconds ∧ 0 < seconds ∧ seconds < 2 ^ 64

theorem size_nonneg (mantissa : Nat) (exponent : Int) : (0 : ℚ) ≤ mantissa * 2 ^ exponent := by
  positivity

theorem size_pos {mantissa : Nat} (h : mantissa ≠ 0) (exponent : Int) :
    (0 : ℚ) < mantissa * 2 ^ exponent := by
  have hmantissa : 0 < mantissa := Nat.pos_of_ne_zero h
  positivity

/-- The sign matters unless the mantissa is zero: minus zero is zero. -/
theorem ratOf_nonneg_iff {negative : Bool} {mantissa : Nat} {exponent : Int} :
    0 ≤ ratOf negative mantissa exponent ↔ ¬ (negative = true ∧ mantissa ≠ 0) := by
  have hsize := size_nonneg mantissa exponent
  unfold ratOf
  split_ifs with hsign
  · constructor
    · rintro hnonneg ⟨-, hmantissa⟩
      have hpos := size_pos hmantissa exponent
      linarith
    · intro hzero
      obtain rfl : mantissa = 0 := by simpa [hsign] using hzero
      simp
  · simp [hsign, hsize]

theorem ratOf_pos_iff {negative : Bool} {mantissa : Nat} {exponent : Int} :
    0 < ratOf negative mantissa exponent ↔ negative = false ∧ mantissa ≠ 0 := by
  have hsize := size_nonneg mantissa exponent
  unfold ratOf
  split_ifs with hsign
  · simp only [hsign, Bool.true_eq_false, false_and, iff_false, not_lt]
    linarith
  · constructor
    · intro hpos
      refine ⟨by simpa using hsign, ?_⟩
      rintro rfl
      simp at hpos
    · rintro ⟨-, hmantissa⟩
      exact size_pos hmantissa exponent

theorem ratOf_of_nonneg {negative : Bool} {mantissa : Nat} {exponent : Int}
    (h : ¬ (negative = true ∧ mantissa ≠ 0)) :
    ratOf negative mantissa exponent = mantissa * 2 ^ exponent := by
  unfold ratOf
  split_ifs with hsign
  · obtain rfl : mantissa = 0 := by simpa [hsign] using h
    simp
  · rfl

/-- The end of the range is tested on whole numbers, -/
theorem size_lt_of_nonneg (mantissa : Nat) {exponent : Int} (h : 0 ≤ exponent) :
    mantissa * Nat.pow 2 exponent.toNat < Duration.secondsLimit ↔
      (mantissa * 2 ^ exponent : ℚ) < 2 ^ 64 := by
  obtain ⟨n, rfl⟩ := Int.eq_ofNat_of_zero_le h
  rw [← Nat.cast_lt (α := ℚ)]
  norm_num [Duration.secondsLimit]

/-- and the range is scaled where the exponent is below zero. -/
theorem size_lt_of_neg (mantissa : Nat) {exponent : Int} (h : ¬ 0 ≤ exponent) :
    mantissa < Duration.secondsLimit * Nat.pow 2 (-exponent).toNat ↔
      (mantissa * 2 ^ exponent : ℚ) < 2 ^ 64 := by
  obtain ⟨n, hn⟩ := Int.eq_ofNat_of_zero_le (show 0 ≤ -exponent by omega)
  obtain rfl : exponent = -(n : Int) := by omega
  have hpos : (0 : ℚ) < 2 ^ n := by positivity
  rw [zpow_neg, zpow_natCast, ← div_eq_mul_inv, div_lt_iff₀ hpos, ← Nat.cast_lt (α := ℚ)]
  norm_num [Duration.secondsLimit]

/-- A float can be made a duration exactly when the number it stands for is in range. -/
theorem isSome_ofSeconds?_iff (x : Single) :
    (Duration.ofSeconds? x).isSome = true ↔ x.IsSpan := by
  unfold Duration.ofSeconds? IsSpan toRat?
  match x.value with
  | .nan => simp
  | .infinite _ => simp
  | .finite negative mantissa exponent =>
      simp only [Option.some.injEq, exists_eq_left', ratOf_nonneg_iff]
      split_ifs with hminus hexponent hrange hrange
      · simp [hminus]
      · rw [size_lt_of_nonneg mantissa hexponent] at hrange
        simp [hminus, ratOf_of_nonneg hminus, hrange]
      · rw [size_lt_of_nonneg mantissa hexponent] at hrange
        simp only [hminus, ratOf_of_nonneg hminus, not_false_eq_true, true_and]
        simpa using hrange
      · rw [size_lt_of_neg mantissa hexponent] at hrange
        simp [hminus, ratOf_of_nonneg hminus, hrange]
      · rw [size_lt_of_neg mantissa hexponent] at hrange
        simp only [hminus, ratOf_of_nonneg hminus, not_false_eq_true, true_and]
        simpa using hrange

variable {x : Single}

theorem isPositive_iff {seconds : ℚ} (h : x.toRat? = some seconds) :
    x.isPositive = true ↔ 0 < seconds := by
  cases hvalue : x.value with
  | nan => simp [toRat?, hvalue] at h
  | infinite negative => simp [toRat?, hvalue] at h
  | finite negative mantissa exponent =>
      simp only [toRat?, hvalue, Option.some.injEq] at h
      subst h
      simp only [isPositive, hvalue, ratOf_pos_iff]
      simp

theorem isNonnegative_iff {seconds : ℚ} (h : x.toRat? = some seconds) :
    x.isNonnegative = true ↔ 0 ≤ seconds := by
  cases hvalue : x.value with
  | nan => simp [toRat?, hvalue] at h
  | infinite negative => simp [toRat?, hvalue] at h
  | finite negative mantissa exponent =>
      simp only [toRat?, hvalue, Option.some.injEq] at h
      subst h
      simp only [isNonnegative, hvalue, ratOf_nonneg_iff]
      cases negative <;> simp

theorem isSpan_iff (x : Single) : x.isSpan = true ↔ x.IsSpan := by
  rw [isSpan, Bool.and_eq_true, isSome_ofSeconds?_iff]
  constructor
  · exact fun h => h.1
  · rintro ⟨seconds, hvalue, hnonneg, hrange⟩
    exact ⟨⟨seconds, hvalue, hnonneg, hrange⟩, (isNonnegative_iff hvalue).mpr hnonneg⟩

theorem isPositiveSpan_iff (x : Single) : x.isPositiveSpan = true ↔ x.IsPositiveSpan := by
  rw [isPositiveSpan, Bool.and_eq_true, isSome_ofSeconds?_iff]
  constructor
  · rintro ⟨⟨seconds, hvalue, -, hrange⟩, hpositive⟩
    exact ⟨seconds, hvalue, (isPositive_iff hvalue).mp hpositive, hrange⟩
  · rintro ⟨seconds, hvalue, hpos, hrange⟩
    exact ⟨⟨seconds, hvalue, hpos.le, hrange⟩, (isPositive_iff hvalue).mpr hpos⟩

end Single

end LiveRelay
