import LiveRelay.SocketAddress

/-! # Scripts of a network

A script says for every address how calls to it go, how binding it goes, and what the
links do that come of it. Times are in milliseconds.
-/

namespace LiveRelay

/-- How an attempt goes. -/
inductive Attempt (α : Type) where
  /-- It never comes to anything. -/
  | hangs
  /-- After a while it succeeds, or fails for the given cause. -/
  | ends (delay : Nat) (outcome : Except String α)

/-- Something to be read from a link, from a time on that counts from its opening. -/
inductive ReadEntry where
  | data (time : Nat) (bytes : ByteArray)
  /-- The peer closes the link. -/
  | finished (time : Nat)
  | failure (time : Nat) (cause : String)

def ReadEntry.time : ReadEntry → Nat
  | data time _ => time
  | finished time => time
  | failure time _ => time

/-- How one attempt to write goes. -/
structure WriteEntry where
  delay : Nat := 0
  /-- The most bytes that the link takes. -/
  limit : Option Nat := none
  failure : Option String := none

/-- What a link does. When the entries are used up nothing more can be read, and all that
is written is taken at once. -/
structure LinkScript where
  reads : List ReadEntry := []
  writes : List WriteEntry := []

/-- What a listener does. When the entries are used up nobody calls. -/
structure ListenerScript where
  localAddress : Option SocketAddress := none
  accepts : List (Attempt LinkScript) := []

/-- How the attempts to dial an address and to bind it go, in order. -/
structure AddressScript where
  dials : List (Attempt LinkScript) := []
  binds : List (Attempt ListenerScript) := []

/-- The scripts of addresses. -/
abbrev NetworkScript := List (String × AddressScript)

namespace Attempt

/-- How an attempt goes for which nothing is said. -/
def refused {α : Type} : Attempt α := .ends 0 (.error "refused")

end Attempt

/-- The first entry of a list, or else `rest`, and the other entries. -/
def nextEntry {α : Type} (rest : α) : List α → α × List α
  | [] => (rest, [])
  | entry :: entries => (entry, entries)

namespace NetworkScript

/-- Takes the next entry for dialling an address. -/
def takeDial (script : NetworkScript) (address : String) : Attempt LinkScript × NetworkScript :=
  match script with
  | [] => (.refused, [])
  | (name, entries) :: rest =>
      if name = address then
        let (attempt, dials) := nextEntry .refused entries.dials
        (attempt, (name, { entries with dials }) :: rest)
      else
        let (attempt, rest) := takeDial rest address
        (attempt, (name, entries) :: rest)

/-- Takes the next entry for binding an address. -/
def takeBind (script : NetworkScript) (address : String) :
    Attempt ListenerScript × NetworkScript :=
  match script with
  | [] => (.refused, [])
  | (name, entries) :: rest =>
      if name = address then
        let (attempt, binds) := nextEntry .refused entries.binds
        (attempt, (name, { entries with binds }) :: rest)
      else
        let (attempt, rest) := takeBind rest address
        (attempt, (name, entries) :: rest)

end NetworkScript

end LiveRelay
