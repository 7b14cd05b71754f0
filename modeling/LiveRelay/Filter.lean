import LiveRelay.Config.Basic
import LiveRelay.Frame

/-! # Which frames an endpoint relays -/

namespace LiveRelay

/-- The kinds of frames that pass, and the keys of data frames that do not. -/
structure StreamFilter where
  video : Bool := true
  audio : Bool := true
  data : Bool := true
  blacklist : List String := []
  deriving DecidableEq

namespace StreamFilter

def ofConfig (config : EndpointConfig) : StreamFilter where
  video := config.video
  audio := config.audio
  data := config.data
  blacklist := config.metadataBlacklist

/-- Whether the frame passes. Raw frames have no kind to go by and always do. -/
def allows (filter : StreamFilter) (frame : Frame) : Bool :=
  match frame.tag with
  | .raw => true
  | .video => filter.video
  | .audio => filter.audio
  | .data key => filter.data && !key.any filter.blacklist.contains

end StreamFilter

end LiveRelay
