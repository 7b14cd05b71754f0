/-! # Binary floating point in exact arithmetic

A float of a binary format is a pattern of bits. `FloatFormat.value` reads the
pattern as a number `mantissa * 2 ^ exponent`, and `FloatFormat.nearest` finds the
pattern nearest to a positive quotient, a tie going to the even mantissa.
-/

namespace LiveRelay

/-- The quotient rounded to the nearest whole number, a tie to the even one. -/
def roundHalfEven (num den : Nat) : Nat :=
  let quotient := num / den
  let rest := 2 * (num % den)
  if den < rest ∨ (rest = den ∧ quotient % 2 = 1) then quotient + 1 else quotient

/-- What a pattern of bits stands for. -/
inductive FloatValue where
  | nan
  | infinite (negative : Bool)
  /-- The number `mantissa * 2 ^ exponent`, negated or not; zero has a sign too. -/
  | finite (negative : Bool) (mantissa : Nat) (exponent : Int)
  deriving DecidableEq

/-- A binary interchange format: a sign bit, an exponent, and a fraction. -/
structure FloatFormat where
  fractionBits : Nat
  exponentBits : Nat

namespace FloatFormat

def single : FloatFormat := ⟨23, 8⟩

def double : FloatFormat := ⟨52, 11⟩

/-- The exponent field of infinities and NaN. -/
def specialField (format : FloatFormat) : Nat := Nat.pow 2 format.exponentBits - 1

/-- The exponent of the last mantissa bit of the smallest numbers. -/
def minExponent (format : FloatFormat) : Int :=
  2 - (Nat.pow 2 (format.exponentBits - 1) : Nat) - format.fractionBits

/-- The weight of the sign bit. -/
def signWeight (format : FloatFormat) : Nat := Nat.pow 2 (format.exponentBits + format.fractionBits)

def value (format : FloatFormat) (bits : Nat) : FloatValue :=
  let fraction := bits % Nat.pow 2 format.fractionBits
  let field := bits / Nat.pow 2 format.fractionBits % Nat.pow 2 format.exponentBits
  let negative := bits / format.signWeight % 2 == 1
  if field = format.specialField then
    if fraction = 0 then .infinite negative else .nan
  else if field = 0 then .finite negative fraction format.minExponent
  else
    .finite negative (Nat.pow 2 format.fractionBits + fraction)
      (format.minExponent + (field - 1 : Nat))

def infinity (format : FloatFormat) : Nat := format.specialField * Nat.pow 2 format.fractionBits

def nan (format : FloatFormat) : Nat := format.infinity + Nat.pow 2 (format.fractionBits - 1)

/-- The pattern of `mantissa * 2 ^ exponent` for a mantissa that fits and an exponent
that is not below the least; infinity when the number is too large. -/
def pack (format : FloatFormat) (mantissa : Nat) (exponent : Int) : Nat :=
  let steps := (exponent - format.minExponent).toNat
  if mantissa < Nat.pow 2 format.fractionBits then mantissa
  else if format.specialField ≤ steps + 1 then format.infinity
  else steps * Nat.pow 2 format.fractionBits + mantissa

/-- The pattern nearest to `num / den`. -/
def nearest (format : FloatFormat) (num den : Nat) : Nat :=
  if num = 0 then 0
  else
    let guess : Int := (num.log2 : Int) - den.log2 - format.fractionBits
    -- The quotient lies between the powers of two at `guess - 1` and `guess + 1`.
    let tooLarge : Bool :=
      if 0 ≤ guess then num < Nat.pow 2 format.fractionBits * (den * Nat.pow 2 guess.toNat)
      else num * Nat.pow 2 (-guess).toNat < Nat.pow 2 format.fractionBits * den
    let exponent := max (if tooLarge then guess - 1 else guess) format.minExponent
    let mantissa :=
      if 0 ≤ exponent then roundHalfEven num (den * Nat.pow 2 exponent.toNat)
      else roundHalfEven (num * Nat.pow 2 (-exponent).toNat) den
    format.pack mantissa exponent

/-- The pattern with its sign set as told. -/
def withSign (format : FloatFormat) (negative : Bool) (bits : Nat) : Nat :=
  if negative then format.signWeight + bits else bits

/-- The pattern nearest to `digits * 10 ^ exponent`. Numbers far out of range are not
computed in full. -/
def ofDecimal (format : FloatFormat) (negative : Bool) (digits : Nat) (exponent : Int) : Nat :=
  let magnitude : Int := (Nat.toDigits 10 digits).length + exponent
  format.withSign negative <|
    if digits = 0 ∨ magnitude < -400 then 0
    else if 400 < magnitude then format.infinity
    else if 0 ≤ exponent then format.nearest (digits * Nat.pow 10 exponent.toNat) 1
    else format.nearest digits (Nat.pow 10 (-exponent).toNat)

/-- The pattern nearest to a value, in another format. -/
def ofValue (format : FloatFormat) : FloatValue → Nat
  | .nan => format.nan
  | .infinite negative => format.withSign negative format.infinity
  | .finite negative mantissa exponent =>
      format.withSign negative <|
        if 0 ≤ exponent then format.nearest (mantissa * Nat.pow 2 exponent.toNat) 1
        else format.nearest mantissa (Nat.pow 2 (-exponent).toNat)

end FloatFormat

end LiveRelay
