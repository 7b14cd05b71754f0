import LiveRelay.Connection.Error
import LiveRelay.Connection.State
import LiveRelay.Event.Path
import LiveRelay.SocketAddress

/-! # Events

Every component of a relay reports what happens to it. An event carries the path of
its component, and an event log keeps all events in the order in which they happened.
-/

namespace LiveRelay

/-- What can happen to a component. -/
inductive EventKind where
  | started
  /-- The component has finished, with the text of its failure if it failed. -/
  | stopped (failure : Option String)
  /-- A connection went from one state to another, with `attempt` retries used up since
  its last link. -/
  | transition (source target : ConnectionState) (attempt : Nat)
      (failure : Option ConnectionError)
  /-- A host has bound its listener. -/
  | listening (address : SocketAddress)
  /-- A sink queue gave up `dropped` frames since the last report, `total` in all. -/
  | framesDropped (dropped total : Nat)
  deriving DecidableEq

/-- Something that happened to the component at `path`. -/
structure Event where
  path : ComponentPath
  kind : EventKind
  deriving DecidableEq

namespace EventKind

/-- The states between which a connection went. -/
def states? : EventKind → Option (ConnectionState × ConnectionState)
  | transition source target _ _ => some (source, target)
  | _ => none

/-- The failure that came with a change of state. -/
def failure? : EventKind → Option ConnectionError
  | transition _ _ _ failure => failure
  | _ => none

def isStop : EventKind → Bool
  | stopped _ => true
  | _ => false

end EventKind

/-- Events in the order in which they happened. -/
structure EventLog where
  events : List Event := []
  deriving DecidableEq

namespace EventLog

/-- Adds the latest event. -/
def record (log : EventLog) (event : Event) : EventLog := ⟨log.events ++ [event]⟩

/-- What happened to the component at a path. -/
def eventsFor (log : EventLog) (path : String) : List EventKind :=
  (log.events.filter (·.path.text = path)).map Event.kind

/-- The changes of state of the connection at a path. -/
def transitionsFor (log : EventLog) (path : String) :
    List (ConnectionState × ConnectionState) :=
  (log.eventsFor path).filterMap EventKind.states?

/-- The failures that came with changes of state of the connection at a path. -/
def failuresFor (log : EventLog) (path : String) : List ConnectionError :=
  (log.eventsFor path).filterMap EventKind.failure?

/-- The components that finished, in the order in which they did. -/
def stopped (log : EventLog) : List ComponentPath :=
  (log.events.filter (·.kind.isStop)).map Event.path

end EventLog

end LiveRelay
