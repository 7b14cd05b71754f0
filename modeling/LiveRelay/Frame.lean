/-! # Frames

A frame is the unit that travels from a source connection through the fan-out of
its endpoint into the queues of the sinks.
-/

namespace LiveRelay

/-- Bytes are compared as they are. -/
instance (priority := high) instDecidableEqBytes : DecidableEq ByteArray :=
  ByteArray.instDecidableEq

/-- The kind of a frame. A data frame may carry a key, the name that opens its
payload. -/
inductive FrameTag where
  | raw
  | video
  | audio
  | data (key : Option String)
  deriving DecidableEq

/-- A frame on its way to the sinks. -/
structure Frame where
  tag : FrameTag
  /-- Milliseconds; a raw frame has none and counts as zero. -/
  timestamp : UInt32
  payload : ByteArray
  deriving DecidableEq

namespace Frame

/-- Bytes without a kind. -/
def raw (payload : ByteArray) : Frame := ⟨.raw, 0, payload⟩

def video (timestamp : UInt32) (payload : ByteArray) : Frame := ⟨.video, timestamp, payload⟩

def audio (timestamp : UInt32) (payload : ByteArray) : Frame := ⟨.audio, timestamp, payload⟩

def data (timestamp : UInt32) (key : Option String) (payload : ByteArray) : Frame :=
  ⟨.data key, timestamp, payload⟩

/-- The key of a data frame that has one. -/
def key? (frame : Frame) : Option String :=
  match frame.tag with
  | .data key => key
  | _ => none

end Frame

end LiveRelay
