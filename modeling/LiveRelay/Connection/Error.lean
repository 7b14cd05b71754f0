import LiveRelay.Duration

/-! # How a connection can fail -/

namespace LiveRelay

/-- A failure of one connection with the peer at `address`. -/
inductive ConnectionError where
  /-- Dialling, binding or accepting failed. -/
  | establish (address cause : String)
  /-- The peer did not answer in time. -/
  | establishTimeout (address : String) (timeout : Duration)
  /-- Reading from a link or writing to it failed. -/
  | link (address cause : String)
  /-- The peer closed the link. -/
  | peerClosed (address : String)
  /-- The bytes from the peer do not follow the framing. -/
  | codec (address reason : String)
  /-- All retries are used up. -/
  | budgetExhausted (address : String) (attempts : Nat)
  deriving DecidableEq

namespace ConnectionError

def message : ConnectionError → String
  | establish address cause => s!"failed to establish link with {address}: {cause}"
  | establishTimeout address timeout =>
      s!"timed out after {timeout.message} establishing link with {address}"
  | link address cause => s!"link with {address} failed: {cause}"
  | peerClosed address => s!"peer {address} closed the link"
  | codec address reason => s!"malformed stream from {address}: {reason}"
  | budgetExhausted address attempts =>
      s!"giving up on {address} after {attempts} reconnect attempt(s)"

/-- Whether no link came up. -/
def isEstablishFailure : ConnectionError → Bool
  | establish _ _ => true
  | establishTimeout _ _ => true
  | _ => false

/-- Whether a link that was up came to an end. -/
def isLinkFailure : ConnectionError → Bool
  | link _ _ => true
  | peerClosed _ => true
  | codec _ _ => true
  | _ => false

/-- Whether the connection has given up. -/
def isTerminal : ConnectionError → Bool
  | budgetExhausted _ _ => true
  | _ => false

end ConnectionError

end LiveRelay
