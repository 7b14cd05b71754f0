import LiveRelay.Number.BinaryFloat

/-! # What plain scalars stand for

A plain scalar is null, a truth value, an integer or a float if it has the form of one,
and else text. Digits behind a leading zero are text.
-/

namespace LiveRelay.Yaml.Plain

def isNull (text : String) : Bool :=
  text == "null" || text == "Null" || text == "NULL" || text == "~"

def bool? (text : String) : Option Bool :=
  if text == "true" || text == "True" || text == "TRUE" then some true
  else if text == "false" || text == "False" || text == "FALSE" then some false
  else none

def digitValue? (base : Nat) (c : Char) : Option Nat :=
  let value? :=
    if '0' ≤ c ∧ c ≤ '9' then some (c.toNat - '0'.toNat)
    else if 'a' ≤ c ∧ c ≤ 'z' then some (c.toNat - 'a'.toNat + 10)
    else if 'A' ≤ c ∧ c ≤ 'Z' then some (c.toNat - 'A'.toNat + 10)
    else none
  value?.filter (· < base)

/-- The value of digits, of which there must be one. -/
def natural? (base : Nat) (digits : List Char) : Option Nat :=
  if digits.isEmpty then none
  else digits.foldlM (fun n c => (digitValue? base c).map (n * base + ·)) 0

/-- The text without a sign in front, and whether there was a minus. -/
def splitSign : List Char → Bool × List Char
  | '-' :: rest => (true, rest)
  | '+' :: rest => (false, rest)
  | text => (false, text)

/-- Whether the text consists of digits, more than one, and starts with a zero. -/
def isZeroPadded (text : List Char) : Bool :=
  match (splitSign text).2 with
  | '0' :: c :: rest => (c :: rest).all Char.isDigit
  | _ => false

/-- The base that a mark in front of the digits names, and the digits. -/
def basedDigits? : List Char → Option (Nat × List Char)
  | '0' :: 'x' :: rest => some (16, rest)
  | '0' :: 'o' :: rest => some (8, rest)
  | '0' :: 'b' :: rest => some (2, rest)
  | _ => none

/-- A number without a minus. -/
def unsigned? (text : String) : Option Nat :=
  let chars := text.toList
  let digits := if chars.head? == some '+' then chars.tail else chars
  match basedDigits? digits with
  | some (base, digits) => natural? base digits
  | none => if isZeroPadded chars then none else natural? 10 digits

/-- The number behind a minus. -/
def negated? (text : String) : Option Nat :=
  match text.toList with
  | '-' :: digits =>
      match basedDigits? digits with
      | some (base, digits) => natural? base digits
      | none => if isZeroPadded digits then none else natural? 10 digits
  | _ => none

/-- Digits with at most one point among them: all digits as a number, and how many of
them are behind the point. There must be a digit. -/
def pointNumber? (text : List Char) : Option (Nat × Nat) :=
  let whole := text.takeWhile (· != '.')
  let fraction := (text.dropWhile (· != '.')).drop 1
  (natural? 10 (whole ++ fraction)).map (·, fraction.length)

/-- A float in decimal notation, as its bits in double precision. It must be finite. -/
def decimalFloat? (text : List Char) : Option Nat := do
  let (negative, text) := splitSign text
  let isMark (c : Char) : Bool := c == 'e' || c == 'E'
  let (digits, places) ← pointNumber? (text.takeWhile (!isMark ·))
  let exponent : Int ←
    match text.dropWhile (!isMark ·) with
    | [] => some 0
    | _ :: power =>
        let (below, power) := splitSign power
        (natural? 10 power).map fun n => if below then -(n : Int) else n
  let bits := FloatFormat.double.ofDecimal negative digits (exponent - places)
  match FloatFormat.double.value bits with
  | .finite _ _ _ => some bits
  | _ => none

/-- A float, as its bits in double precision. -/
def float? (text : String) : Option Nat :=
  let chars := text.toList
  let unmarked := if chars.head? == some '+' then chars.tail else chars
  let unsignedText := String.ofList unmarked
  if chars.head? == some '+' && (unmarked.head? == some '+' || unmarked.head? == some '-') then
    none
  else if unsignedText == ".inf" || unsignedText == ".Inf" || unsignedText == ".INF" then
    some FloatFormat.double.infinity
  else if text == "-.inf" || text == "-.Inf" || text == "-.INF" then
    some (FloatFormat.double.withSign true FloatFormat.double.infinity)
  else if text == ".nan" || text == ".NaN" || text == ".NAN" then some FloatFormat.double.nan
  else decimalFloat? unmarked

end LiveRelay.Yaml.Plain
