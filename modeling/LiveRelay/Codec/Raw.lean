import LiveRelay.Codec.Basic

/-! # Raw framing

Whatever is buffered is one frame, and a frame is written as it stands.
-/

namespace LiveRelay.Raw

def decode (buffer : ByteArray) : Except CodecError (Option Frame) × ByteArray :=
  if buffer.isEmpty then (.ok none, buffer)
  else (.ok (some (.raw buffer)), .empty)

def encode (frame : Frame) (output : ByteArray) : ByteArray := output ++ frame.payload

end LiveRelay.Raw
