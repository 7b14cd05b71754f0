import LiveRelay.Number.BinaryFloat

/-! # The shortest decimal text of a float

Of all decimals that read back as the float, `Shortest.digits` takes one with the
fewest digits, and of these the nearest. `FloatValue.positional` writes it out in
full, without an exponent, and with at least one digit behind the point.
-/

namespace LiveRelay

namespace Shortest

/-- A decimal `digits * 10 ^ exponent`. -/
structure Decimal where
  digits : Nat
  exponent : Int
  deriving DecidableEq

/-- The quotient `num / den` on the grid of multiples of `10 ^ exponent`: the point
below it and the point above. -/
def neighbours (num den : Nat) (exponent : Int) : Nat × Nat :=
  let below :=
    if 0 ≤ exponent then num / (den * Nat.pow 10 exponent.toNat)
    else num * Nat.pow 10 (-exponent).toNat / den
  (below, below + 1)

/-- Whether the point is at least as near to the quotient as the next one up. -/
def belowIsNearer (num den : Nat) (exponent : Int) (below : Nat) : Bool :=
  if 0 ≤ exponent then
    2 * num ≤ (2 * below + 1) * (den * Nat.pow 10 exponent.toNat)
  else 2 * num * Nat.pow 10 (-exponent).toNat ≤ (2 * below + 1) * den

/-- Looks for a decimal that reads back as `bits`, on finer and finer grids. -/
def search (format : FloatFormat) (bits num den : Nat) (exponent : Int) : Nat → Decimal
  | 0 => ⟨(neighbours num den exponent).1, exponent⟩
  | tries + 1 =>
      let (below, above) := neighbours num den exponent
      let reads digits := format.ofDecimal false digits exponent = bits
      match decide (reads below), decide (reads above) with
      | true, true =>
          if belowIsNearer num den exponent below then ⟨below, exponent⟩ else ⟨above, exponent⟩
      | true, false => ⟨below, exponent⟩
      | false, true => ⟨above, exponent⟩
      | false, false => search format bits num den (exponent - 1) tries

/-- The shortest decimal for `mantissa * 2 ^ exponent`, a float of the format. The
first grid is coarser than the number; the last is finer than any two floats. -/
def digits (format : FloatFormat) (mantissa : Nat) (exponent : Int) : Decimal :=
  if mantissa = 0 then ⟨0, 0⟩
  else
    let num := if 0 ≤ exponent then mantissa * Nat.pow 2 exponent.toNat else mantissa
    let den := if 0 ≤ exponent then 1 else Nat.pow 2 (-exponent).toNat
    let magnitude : Int := (Nat.toDigits 10 num).length - (Nat.toDigits 10 den).length + 1
    search format (format.nearest num den) num den magnitude (format.fractionBits + 4)

end Shortest

/-- Digits with a point `places` digits from the right, and at least one on each side. -/
def pointText (digits : Nat) (places : Nat) : String :=
  let text := Nat.toDigits 10 digits
  let padded := List.replicate (places + 1 - text.length) '0' ++ text
  let whole := padded.take (padded.length - places)
  let fraction := padded.drop (padded.length - places)
  String.ofList whole ++ "." ++ (if fraction.isEmpty then "0" else String.ofList fraction)

/-- The shortest text of a value of the format, with a point in it. -/
def FloatValue.positional (format : FloatFormat) : FloatValue → String
  | .nan => "NaN.0"
  | .infinite negative => (if negative then "-" else "") ++ "inf.0"
  | .finite negative mantissa exponent =>
      let decimal := Shortest.digits format mantissa exponent
      (if negative then "-" else "") ++
        if 0 ≤ decimal.exponent then
          pointText (decimal.digits * Nat.pow 10 decimal.exponent.toNat) 0
        else pointText decimal.digits (-decimal.exponent).toNat

end LiveRelay
