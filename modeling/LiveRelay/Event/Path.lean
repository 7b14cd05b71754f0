import LiveRelay.Config.Basic

/-! # Paths of components

Every component of a relay has a path: the path of the component above it, and a
segment of its own that starts with its place there.
-/

namespace LiveRelay

/-- The path of a component. -/
structure ComponentPath where
  text : String
  deriving DecidableEq

namespace ComponentPath

/-- The relay itself. -/
def root : ComponentPath := ⟨"relay"⟩

def child (path : ComponentPath) (segment : String) : ComponentPath :=
  ⟨path.text ++ "/" ++ segment⟩

def server (path : ComponentPath) (index : Nat) : ComponentPath :=
  path.child s!"server[{index}]"

/-- The path of an endpoint, which shows its stream if it has a name. -/
def endpoint (path : ComponentPath) (index : Nat) (config : EndpointConfig) : ComponentPath :=
  let stream :=
    if config.applicationName.isEmpty ∧ config.streamName.isEmpty then ""
    else s!":{config.applicationName}/{config.streamName}"
  path.child s!"endpoint[{index}{stream}]"

def connection (path : ComponentPath) (config : ConnectionConfig) : ComponentPath :=
  path.child s!"connection[{config.index}:{config.address}]"

end ComponentPath

end LiveRelay
