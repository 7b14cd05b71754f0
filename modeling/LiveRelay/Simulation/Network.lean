import LiveRelay.Relay.Basic
import LiveRelay.Simulation.Script

/-! # A network that follows a script

The network takes the requests of connections and answers each when the script says so.
A connection waits for one answer at a time. What was dialled, opened and bound, and when,
is recorded.
-/

namespace LiveRelay

/-- A request that has not been answered. -/
inductive Pending where
  | dialling (started deadline : Nat) (attempt : Attempt LinkScript)
  | binding (started : Nat) (attempt : Attempt ListenerScript)
  | accepting (started : Nat) (attempt : Attempt LinkScript)
  | reading (limit : Nat)
  | writing (due : Nat) (bytes : ByteArray) (entry : WriteEntry)
  | pausing (due : Nat)

/-- A link that is up. -/
structure OpenLink where
  /-- Its place in the record. -/
  number : Nat
  opened : Nat
  reads : List ReadEntry
  writes : List WriteEntry

/-- A listener that is bound. -/
structure OpenListener where
  /-- Its place in the record. -/
  number : Nat
  accepts : List (Attempt LinkScript)

/-- What the network holds for one connection. -/
structure Line where
  pending : Option Pending := none
  link : Option OpenLink := none
  listener : Option OpenListener := none

structure LinkRecord where
  address : String
  opened : Nat
  closed : Option Nat := none
  /-- The bytes that were taken by every write, and when. -/
  writes : Array (Nat × ByteArray) := #[]

structure ListenerRecord where
  address : String
  bound : Nat
  released : Option Nat := none

/-- A network in the middle of its script. -/
structure Network where
  script : NetworkScript
  lines : List (ConnectionId × Line) := []
  /-- The addresses dialled, and when. -/
  dials : Array (String × Nat) := #[]
  links : Array LinkRecord := #[]
  listeners : Array ListenerRecord := #[]

namespace Attempt

/-- When an attempt that started at a time ends. -/
def due? {α : Type} (started : Nat) : Attempt α → Option Nat
  | hangs => none
  | ends delay _ => some (started + delay)

/-- What has become of an attempt by now. -/
def outcome? {α : Type} (started now : Nat) : Attempt α → Option (Except String α)
  | hangs => none
  | ends delay outcome => if started + delay ≤ now then some outcome else none

end Attempt

namespace OpenLink

/-- What a read of up to `limit` bytes finds by now. The bytes that it leaves can be read
at once. After its end a link stays at the end. -/
def read? (link : OpenLink) (limit now : Nat) : Option (Except String ByteArray × OpenLink) :=
  match link.reads with
  | [] => none
  | entry :: rest =>
      if link.opened + entry.time ≤ now then
        match entry with
        | .data time bytes =>
            let taken := bytes.extract 0 limit
            let reads :=
              if bytes.size ≤ limit then rest
              else .data time (bytes.extract limit bytes.size) :: rest
            some (.ok taken, { link with reads })
        | .finished _ => some (.ok .empty, link)
        | .failure _ cause => some (.error cause, { link with reads := rest })
      else none

/-- When the next thing can be read. -/
def readDue? (link : OpenLink) : Option Nat :=
  link.reads.head?.map fun entry => link.opened + entry.time

end OpenLink

namespace WriteEntry

/-- What the link does with the bytes: it takes the first so many. -/
def outcome (entry : WriteEntry) (bytes : ByteArray) : Except String Nat :=
  match entry.failure with
  | some cause => .error cause
  | none => .ok (min (entry.limit.getD bytes.size) bytes.size)

end WriteEntry

namespace Line

/-- When something can next be answered. -/
def due? (line : Line) : Option Nat :=
  match line.pending with
  | none => none
  | some (.dialling started deadline attempt) =>
      some (((attempt.due? started).map (min deadline)).getD deadline)
  | some (.binding started attempt) => attempt.due? started
  | some (.accepting started attempt) => attempt.due? started
  | some (.reading _) => line.link.bind OpenLink.readDue?
  | some (.writing due _ _) => some due
  | some (.pausing due) => some due

end Line

namespace Network

/-- What the network holds for a connection. -/
def line (network : Network) (id : ConnectionId) : Line := (network.lines.lookup id).getD {}

def setLine (network : Network) (id : ConnectionId) (line : Line) : Network :=
  { network with lines := (id, line) :: network.lines.filter (·.1 ≠ id) }

/-- Opens the link of a connection. -/
def openLink (network : Network) (id : ConnectionId) (address : String) (now : Nat)
    (script : LinkScript) : Network :=
  let link : OpenLink :=
    { number := network.links.size, opened := now, reads := script.reads, writes := script.writes }
  let line := network.line id
  { network.setLine id { line with pending := none, link := some link } with
    links := network.links.push { address, opened := now } }

/-- Opens the listener of a connection. -/
def openListener (network : Network) (id : ConnectionId) (address : String) (now : Nat)
    (script : ListenerScript) : Network :=
  let listener : OpenListener :=
    { number := network.listeners.size, accepts := script.accepts }
  let line := network.line id
  { network.setLine id { line with pending := none, listener := some listener } with
    listeners := network.listeners.push { address, bound := now } }

/-- Takes a request of the connection with the given address. -/
def request (network : Network) (id : ConnectionId) (address : String) (now : Nat)
    (request : Request) : Network :=
  let line := network.line id
  let await (network : Network) (pending : Pending) : Network :=
    network.setLine id { line with pending := some pending }
  match request with
  | .dial timeout =>
      let (attempt, script) := network.script.takeDial address
      await { network with script, dials := network.dials.push (address, now) }
        (.dialling now (now + timeout.ceilMillis) attempt)
  | .bind =>
      let (attempt, script) := network.script.takeBind address
      await { network with script } (.binding now attempt)
  | .accept =>
      match line.listener with
      | none => network
      | some listener =>
          let (attempt, accepts) := nextEntry .hangs listener.accepts
          network.setLine id
            { line with
              pending := some (.accepting now attempt)
              listener := some { listener with accepts } }
  | .read limit => await network (.reading limit)
  | .write bytes =>
      match line.link with
      | none => network
      | some link =>
          let (entry, writes) := nextEntry {} link.writes
          network.setLine id
            { line with
              pending := some (.writing (now + entry.delay) bytes entry)
              link := some { link with writes } }
  | .hangUp =>
      match line.link with
      | none => network
      | some link =>
          let network := network.setLine id { line with pending := none, link := none }
          { network with links := network.links.modify link.number fun record =>
              { record with closed := some now } }
  | .unbind =>
      match line.listener with
      | none => network
      | some listener =>
          let network := network.setLine id { line with pending := none, listener := none }
          { network with listeners := network.listeners.modify listener.number fun record =>
              { record with released := some now } }
  | .pause span => await network (.pausing (now + span.ceilMillis))

/-- The answer to a call that came through, was turned down or came to nothing. -/
def answerLink (network : Network) (id : ConnectionId) (address : String) (now : Nat)
    (outcome : Except String LinkScript) (signal : Except String Unit → Signal) :
    Signal × Network :=
  match outcome with
  | .error cause => (signal (.error cause), network)
  | .ok script => (signal (.ok ()), network.openLink id address now script)

/-- The answer to what a connection waits for, if it is due by now. -/
def answer? (network : Network) (id : ConnectionId) (address : String) (now : Nat) :
    Option (Signal × Network) :=
  let line := network.line id
  match line.pending with
  | none => none
  | some (.dialling started deadline attempt) =>
      match attempt.outcome? started now with
      | some outcome => some (network.answerLink id address now outcome .dialled)
      | none => if deadline ≤ now then some (.timedOut, network) else none
  | some (.binding started attempt) =>
      (attempt.outcome? started now).map fun
        | .error cause => (.bound (.error cause), network)
        | .ok script =>
            (.bound (.ok script.localAddress), network.openListener id address now script)
  | some (.accepting started attempt) =>
      (attempt.outcome? started now).map fun outcome =>
        network.answerLink id address now outcome .accepted
  | some (.reading limit) => do
      let link ← line.link
      let (outcome, link) ← link.read? limit now
      return (.received outcome, network.setLine id { line with link := some link })
  | some (.writing due bytes entry) =>
      if now < due then none
      else
        match entry.outcome bytes, line.link with
        | .ok taken, some link =>
            some (.wrote (.ok taken),
              { network with links := network.links.modify link.number fun record =>
                  { record with writes := record.writes.push (now, bytes.extract 0 taken) } })
        | outcome, _ => some (.wrote outcome, network)
  | some (.pausing due) => if due ≤ now then some (.rested, network) else none

end Network

end LiveRelay
