import LiveRelay.Frame

/-! # What codecs share

A codec cuts the bytes of one link into frames and turns frames back into bytes.
Both directions keep their state in the codec and hand it back with the result,
also when they fail.
-/

namespace LiveRelay

/-- How the links of an endpoint are framed. -/
inductive CodecKind where
  /-- Whatever one read delivers is a frame. -/
  | raw
  /-- FLV tags. -/
  | flv
  deriving DecidableEq

/-- What can be wrong with the file header of a stream. -/
inductive StreamFault where
  | unsupportedVersion (version : Nat)
  | shortDataOffset (offset : Nat)
  | longDataOffset (offset limit : Nat)
  deriving DecidableEq

namespace StreamFault

def message : StreamFault → String
  | unsupportedVersion version => s!"unsupported FLV version {version}"
  | shortDataOffset offset => s!"FLV data offset {offset} is shorter than the header"
  | longDataOffset offset limit => s!"FLV data offset {offset} exceeds {limit}"

end StreamFault

/-- Why a codec refuses bytes or a frame. -/
inductive CodecError where
  /-- The stream does not follow the framing. -/
  | invalid (fault : StreamFault)
  /-- The payload has more bytes than a tag can declare. -/
  | frameTooLarge (size : Nat)
  deriving DecidableEq

namespace CodecError

def message : CodecError → String
  | invalid fault => s!"invalid stream: {fault.message}"
  | frameTooLarge size => s!"frame of {size} bytes exceeds the maximum tag size"

end CodecError

/-- One attempt to take a frame from the front of `buffer`: the frame, `none` while
more bytes are needed, or an error. -/
structure Decoding (Codec : Type) where
  result : Except CodecError (Option Frame)
  codec : Codec
  /-- What is left of the buffer. -/
  buffer : ByteArray

/-- One attempt to append a frame to `output`. -/
structure Encoding (Codec : Type) where
  result : Except CodecError Unit
  codec : Codec
  output : ByteArray

end LiveRelay
