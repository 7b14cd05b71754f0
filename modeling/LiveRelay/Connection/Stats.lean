/-! # The counters of a connection -/

namespace LiveRelay

/-- What has gone through a connection since it was built. Every number stands for a counter of
64 bits: no run counts to 2^64, so none of them wraps around. -/
structure ConnectionStats where
  bytesReceived : Nat := 0
  /-- Encoded bytes of the frames that were written to the end. -/
  bytesSent : Nat := 0
  /-- Frames decoded from peers. -/
  framesReceived : Nat := 0
  /-- Frames written to the end. -/
  framesSent : Nat := 0
  /-- Decoded frames that the filter did not let pass. -/
  framesFiltered : Nat := 0
  /-- Frames taken from the queue whose writing failed. -/
  framesLost : Nat := 0
  linksEstablished : Nat := 0
  deriving DecidableEq

namespace ConnectionStats

def addReceived (stats : ConnectionStats) (bytes : Nat) : ConnectionStats :=
  { stats with bytesReceived := stats.bytesReceived + bytes }

def addFrameReceived (stats : ConnectionStats) : ConnectionStats :=
  { stats with framesReceived := stats.framesReceived + 1 }

def addFiltered (stats : ConnectionStats) : ConnectionStats :=
  { stats with framesFiltered := stats.framesFiltered + 1 }

/-- Counts a frame that took this many bytes on the link. -/
def addSent (stats : ConnectionStats) (bytes : Nat) : ConnectionStats :=
  { stats with bytesSent := stats.bytesSent + bytes, framesSent := stats.framesSent + 1 }

def addLost (stats : ConnectionStats) : ConnectionStats :=
  { stats with framesLost := stats.framesLost + 1 }

def addLink (stats : ConnectionStats) : ConnectionStats :=
  { stats with linksEstablished := stats.linksEstablished + 1 }

end ConnectionStats

end LiveRelay
