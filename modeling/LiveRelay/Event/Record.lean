import LiveRelay.Config.Basic
import LiveRelay.Event.Basic

/-! # Log records

What is logged about a relay is a list of records: a level, a message and named values.
`LogRecord.ofEvent` says how an event is logged.
-/

namespace LiveRelay

/-- The part of the program that a record comes from. -/
inductive LogSource where
  | program
  | relay
  | server
  | endpoint
  | event
  deriving DecidableEq

/-- The name of a part, by which a reader of the log can choose what to see. -/
def LogSource.target : LogSource → String
  | program => "rtmp_relay"
  | relay => "rtmp_relay::relay"
  | server => "rtmp_relay::server"
  | endpoint => "rtmp_relay::endpoint"
  | event => "rtmp_relay::event"

/-- One entry of the log. -/
structure LogRecord where
  level : LogLevel
  source : LogSource
  message : String
  /-- Names and the texts of their values, in the order in which they are shown. -/
  fields : List (String × String)
  deriving DecidableEq

namespace LogRecord

/-- How a change of state is logged. The attempt is left out when a link came up. -/
def ofTransition (path : String) (source target : ConnectionState) (attempt : Nat)
    (failure : Option ConnectionError) : LogLevel × String × List (String × String) :=
  let states := [("path", path), ("from", source.name), ("to", target.name)]
  let counted := states ++ [("attempt", toString attempt)]
  match failure with
  | some failure =>
      let fields := counted ++ [("error", failure.message)]
      if failure.isTerminal then (.error, "Connection gave up", fields)
      else (.warn, "Connection failed", fields)
  | none =>
      if target = .active then (.info, "Connection established", states)
      else (.debug, "Connection state changed", counted)

/-- How an event is logged. -/
def ofEvent (event : Event) : LogRecord :=
  let path := event.path.text
  let record (level : LogLevel) (message : String) (fields : List (String × String)) :
      LogRecord := { level, source := .event, message, fields }
  match event.kind with
  | .started => record .debug "Started" [("path", path)]
  | .stopped none => record .info "Stopped" [("path", path)]
  | .stopped (some failure) =>
      record .error "Stopped with failure" [("path", path), ("error", failure)]
  | .transition source target attempt failure =>
      let (level, message, fields) := ofTransition path source target attempt failure
      record level message fields
  | .listening address => record .info "Listening" [("path", path), ("addr", address.toText)]
  | .framesDropped dropped total =>
      record .warn "Sink queue overflowed, dropped oldest frames"
        [("path", path), ("dropped", toString dropped), ("total", toString total)]

end LogRecord

end LiveRelay
