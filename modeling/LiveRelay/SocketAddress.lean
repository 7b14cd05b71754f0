/-! # Socket addresses

An address of four octets or eight groups, and a port. `SocketAddress.parse?` accepts
the usual texts `a.b.c.d:port` and `[groups]:port`, where the groups may leave out a
run of zeros, end in four octets, and be followed by a scope number; `toText` writes
the canonical one.
-/

namespace LiveRelay

/-- An address with a port. -/
inductive SocketAddress where
  | v4 (octets : List Nat) (port : Nat)
  | v6 (groups : List Nat) (scope : Nat) (port : Nat)
  deriving DecidableEq

namespace SocketAddress

def port : SocketAddress → Nat
  | v4 _ port => port
  | v6 _ _ port => port

/-- The value of a digit in a base up to sixteen. -/
def digit? (base : Nat) (c : Char) : Option Nat :=
  let value? :=
    if '0' ≤ c ∧ c ≤ '9' then some (c.toNat - '0'.toNat)
    else if 'a' ≤ c ∧ c ≤ 'f' then some (c.toNat - 'a'.toNat + 10)
    else if 'A' ≤ c ∧ c ≤ 'F' then some (c.toNat - 'A'.toNat + 10)
    else none
  value?.filter (· < base)

/-- The digits in front, and the rest. -/
def digits (base : Nat) : List Char → List Nat × List Char
  | [] => ([], [])
  | c :: rest =>
      match digit? base c with
      | none => ([], c :: rest)
      | some d => ((digits base rest).map (d :: ·) id)

/-- A number in front that stays below `limit`. -/
def number? (base limit : Nat) (text : List Char) : Option (Nat × List Char) :=
  let (ds, rest) := digits base text
  let value := ds.foldl (fun n d => n * base + d) 0
  if ds.isEmpty ∨ limit ≤ value then none else some (value, rest)

/-- An octet: up to three digits, and no zero in front of others. -/
def octet? (text : List Char) : Option (Nat × List Char) :=
  let ds := (digits 10 text).1
  if 3 < ds.length ∨ (ds.head? = some 0 ∧ 1 < ds.length) then none else number? 10 256 text

/-- A group: up to four hexadecimal digits. -/
def group? (text : List Char) : Option (Nat × List Char) :=
  if 4 < (digits 16 text).1.length then none else number? 16 65536 text

def char? (c : Char) : List Char → Option (List Char)
  | [] => none
  | d :: rest => if d = c then some rest else none

/-- Four octets with points between them. -/
def octets? (text : List Char) : Option (List Nat × List Char) := do
  let (a, text) ← octet? text
  let (b, text) ← octet? (← char? '.' text)
  let (c, text) ← octet? (← char? '.' text)
  let (d, text) ← octet? (← char? '.' text)
  return ([a, b, c, d], text)

/-- As many groups as there are, up to `room`, with colons between them, and whether
the last two were given as four octets. -/
def groups (first : Bool) : (room : Nat) → List Char → List Nat × Bool × List Char
  | 0, text => ([], false, text)
  | room + 1, text =>
      match if first then some text else char? ':' text with
      | none => ([], false, text)
      | some inner =>
          match if room = 0 then none else octets? inner with
          | some ([a, b, c, d], rest) => ([a * 256 + b, c * 256 + d], true, rest)
          | _ =>
              match group? inner with
              | none => ([], false, text)
              | some (g, rest) =>
                  let (gs, octets, rest) := groups false room rest
                  (g :: gs, octets, rest)

/-- Eight groups, or fewer around a double colon that stands for at least one zero. -/
def eightGroups? (text : List Char) : Option (List Nat × List Char) := do
  let (front, octets, text) := groups true 8 text
  if front.length = 8 then return (front, text)
  if octets then none
  let text ← char? ':' (← char? ':' text)
  let (back, _, text) := groups true (7 - front.length) text
  return (front ++ List.replicate (8 - front.length - back.length) 0 ++ back, text)

/-- The scope number behind the groups; without one it is zero. -/
def scope (text : List Char) : Nat × List Char :=
  (char? '%' text >>= number? 10 (Nat.pow 2 32)).getD (0, text)

def port? (text : List Char) : Option (Nat × List Char) :=
  char? ':' text >>= number? 10 65536

def parseV4? (text : List Char) : Option SocketAddress := do
  let (octets, text) ← octets? text
  let (port, text) ← port? text
  if text.isEmpty then return v4 octets port else none

def parseV6? (text : List Char) : Option SocketAddress := do
  let (groups, text) ← eightGroups? (← char? '[' text)
  let (scope, text) := scope text
  let (port, text) ← port? (← char? ']' text)
  if text.isEmpty then return v6 groups scope port else none

/-- Reads an address that fills the whole text. -/
def parse? (text : String) : Option SocketAddress :=
  parseV4? text.toList <|> parseV6? text.toList

def octetsText (octets : List Nat) : String :=
  ".".intercalate (octets.map toString)

def groupsText (groups : List Nat) : String :=
  ":".intercalate (groups.map fun group => String.ofList (Nat.toDigits 16 group))

/-- The first of the longest runs of zeros, as the place where it starts and its length. -/
def longestZeros (groups : List Nat) : Nat × Nat :=
  let runs := (List.range groups.length).map fun start =>
    (start, ((groups.drop start).takeWhile (· == 0)).length)
  runs.foldl (fun best run => if best.2 < run.2 then run else best) (0, 0)

/-- The groups, with the longest run of two zeros or more left out. Addresses that stand
for four octets end in them. -/
def addressText (groups : List Nat) : String :=
  match groups with
  | [0, 0, 0, 0, 0, 0xFFFF, a, b] =>
      "::ffff:" ++ octetsText [a / 256, a % 256, b / 256, b % 256]
  | _ =>
      let (start, length) := longestZeros groups
      if length ≤ 1 then groupsText groups
      else groupsText (groups.take start) ++ "::" ++ groupsText (groups.drop (start + length))

def toText : SocketAddress → String
  | v4 octets port => s!"{octetsText octets}:{port}"
  | v6 groups scope port =>
      let zone := if scope = 0 then "" else s!"%{scope}"
      s!"[{addressText groups}{zone}]:{port}"

end SocketAddress

end LiveRelay
