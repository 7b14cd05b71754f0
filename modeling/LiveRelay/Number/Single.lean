import LiveRelay.Number.BinaryFloat

/-! # Single-precision numbers

A configured number of seconds is a float of 32 bits. It is kept as its bits, and
compared and computed with through its exact value.
-/

namespace LiveRelay

/-- A float of 32 bits. -/
structure Single where
  bits : UInt32
  deriving DecidableEq

namespace Single

def ofBits (bits : Nat) : Single := ⟨UInt32.ofNat bits⟩

def value (x : Single) : FloatValue := FloatFormat.single.value x.bits.toNat

/-- The float nearest to `num / den`. -/
def nearest (num den : Nat) : Single := ofBits (FloatFormat.single.nearest num den)

/-- The float nearest to a double-precision value. -/
def ofDouble (x : FloatValue) : Single := ofBits (FloatFormat.single.ofValue x)

/-- The number `digits * 10 ^ exponent` taken to double precision and then to single. -/
def ofDecimal (negative : Bool) (digits : Nat) (exponent : Int) : Single :=
  ofDouble (FloatFormat.double.value (FloatFormat.double.ofDecimal negative digits exponent))

def ofNat (n : Nat) : Single := nearest n 1

def isNan (x : Single) : Bool := x.value == .nan

/-- Whether the number is above zero. -/
def isPositive (x : Single) : Bool :=
  match x.value with
  | .nan => false
  | .infinite negative => !negative
  | .finite negative mantissa _ => !negative && mantissa != 0

/-- Whether the number is zero, of either sign, or above. -/
def isNonnegative (x : Single) : Bool :=
  match x.value with
  | .nan => false
  | .infinite negative => !negative
  | .finite negative mantissa _ => !negative || mantissa == 0

end Single

end LiveRelay
