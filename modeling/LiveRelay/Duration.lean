import LiveRelay.Number.Single

/-! # Spans of time

A duration is a whole number of nanoseconds that a 64-bit count of seconds can hold.
A number of seconds becomes the nearest duration, a tie going to the even nanosecond;
negative numbers, NaN and numbers beyond the range have none.
-/

namespace LiveRelay

/-- A span of time, in nanoseconds. -/
structure Duration where
  nanoseconds : Nat
  deriving DecidableEq

namespace Duration

def nanosPerSecond : Nat := 1000000000

def nanosPerMilli : Nat := 1000000

def zero : Duration := ⟨0⟩

/-- The seconds that a duration stays below. -/
def secondsLimit : Nat := Nat.pow 2 64

/-- The longest span. -/
def max : Duration := ⟨secondsLimit * nanosPerSecond - 1⟩

def ofParts (seconds nanos : Nat) : Duration := ⟨seconds * nanosPerSecond + nanos⟩

def seconds (span : Duration) : Nat := span.nanoseconds / nanosPerSecond

/-- The nanoseconds beyond the last full second. -/
def subsecondNanos (span : Duration) : Nat := span.nanoseconds % nanosPerSecond

/-- The duration nearest to a number of seconds. Minus zero is zero. -/
def ofSeconds? (seconds : Single) : Option Duration :=
  match seconds.value with
  | .nan => none
  | .infinite _ => none
  | .finite negative mantissa exponent =>
      if negative ∧ mantissa ≠ 0 then none
      else if 0 ≤ exponent then
        let whole := mantissa * Nat.pow 2 exponent.toNat
        if whole < secondsLimit then some ⟨whole * nanosPerSecond⟩ else none
      else
        let scale := Nat.pow 2 (-exponent).toNat
        if mantissa < secondsLimit * scale then
          some ⟨roundHalfEven (mantissa * nanosPerSecond) scale⟩
        else none

/-- The duration nearest to a number of seconds, or else the end of the range on its
side. -/
def saturating (seconds : Single) : Duration :=
  (ofSeconds? seconds).getD (if seconds.isPositive then max else zero)

/-- The span in seconds: the full seconds and the rest are each rounded to a float,
and so are their quotient and sum. -/
def toSeconds (span : Duration) : Single :=
  let whole := Single.ofNat span.seconds
  let rest := Single.ofNat span.subsecondNanos
  let quotient (x : Single) (den : Nat) : Nat × Nat :=
    match x.value with
    | .finite _ mantissa exponent =>
        if 0 ≤ exponent then (mantissa * Nat.pow 2 exponent.toNat, den)
        else (mantissa, den * Nat.pow 2 (-exponent).toNat)
    | _ => (0, 1)
  let (n, d) := quotient rest nanosPerSecond
  let (n₁, d₁) := quotient whole 1
  let (n₂, d₂) := quotient (Single.nearest n d) 1
  Single.nearest (n₁ * d₂ + n₂ * d₁) (d₁ * d₂)

/-- A whole part and the digits of `fraction / 10 ^ places` without trailing zeros. -/
def decimalText (whole fraction places : Nat) : String :=
  let digits := Nat.toDigits 10 fraction
  let padded := List.replicate (places - digits.length) '0' ++ digits
  let kept := (padded.reverse.dropWhile (· == '0')).reverse
  if kept.isEmpty then toString whole else s!"{whole}.{String.ofList kept}"

/-- The span in the largest unit that leaves something in front of the point. -/
def message (span : Duration) : String :=
  let n := span.nanoseconds
  if nanosPerSecond ≤ n then decimalText (n / nanosPerSecond) (n % nanosPerSecond) 9 ++ "s"
  else if 1000000 ≤ n then decimalText (n / 1000000) (n % 1000000) 6 ++ "ms"
  else if 1000 ≤ n then decimalText (n / 1000) (n % 1000) 3 ++ "µs"
  else s!"{n}ns"

/-- The span as a count of milliseconds, any fraction counting as one more. -/
def ceilMillis (span : Duration) : Nat := (span.nanoseconds + nanosPerMilli - 1) / nanosPerMilli

end Duration

end LiveRelay
