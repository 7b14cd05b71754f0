import LiveRelay.Config.Load
import LiveRelay.Connection.Error

/-! # How a relay can fail -/

namespace LiveRelay

/-- A failure of a relay or of a part of it that groups connections. -/
inductive RelayError where
  | config (cause : ConfigError)
  | io (cause : String)
  /-- The relay is running or has run. -/
  | alreadyRunning
  /-- Connections of the endpoint ended in failure. -/
  | endpointFailed (path : String) (failures : Nat)
  /-- Endpoints of the server failed. -/
  | serverFailed (path : String) (failures : Nat)
  deriving DecidableEq

namespace RelayError

def message : RelayError → String
  | config cause => s!"configuration error: {cause.message}"
  | io cause => s!"I/O error: {cause}"
  | alreadyRunning => "relay is already running"
  | endpointFailed path failures =>
      s!"endpoint {path}: {failures} connection(s) terminated with failure"
  | serverFailed path failures => s!"server {path}: {failures} endpoint(s) failed"

end RelayError

end LiveRelay
