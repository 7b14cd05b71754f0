import LiveRelay.Codec.Flv
import LiveRelay.Codec.Raw

/-! # The codec of a link

Every link gets a codec of its own, so nothing that one link left unfinished reaches
the next. Taking a frame always shortens the buffer (`decode_size_lt`), which is why
`drain` ends.
-/

namespace LiveRelay

namespace FlvCodec

open Flv

theorem nextTag_size_lt {codec : FlvCodec} {buffer : ByteArray} {frame : Frame}
    (h : (codec.nextTag buffer).result = .ok (some frame)) :
    (codec.nextTag buffer).buffer.size < buffer.size := by
  unfold nextTag at h ⊢
  split at h
  · simp at h
  · next header _ =>
      split at h
      · simp at h
      · next hsize =>
          have : 0 < header.tagSize := by unfold TagHeader.tagSize tagHeaderSize; omega
          simp only [hsize, if_false, ByteArray.size_extract]
          omega

theorem decode_size_lt {codec : FlvCodec} {buffer : ByteArray} {frame : Frame}
    (h : (codec.decode buffer).result = .ok (some frame)) :
    (codec.decode buffer).buffer.size < buffer.size := by
  unfold decode at h ⊢
  split at h
  · exact nextTag_size_lt h
  · split at h
    · simp at h
    · next hempty =>
        simp only [if_neg hempty] at h ⊢
        cases hopening : Opening.ofBytes buffer <;> simp only [hopening] at h ⊢
        case undecided => simp at h
        case faulty => simp at h
        case headerless => exact nextTag_size_lt h
        case header =>
          refine Nat.lt_of_lt_of_le (nextTag_size_lt h) ?_
          simp only [ByteArray.size_extract]
          omega

end FlvCodec

/-- The codec of one link. -/
inductive LinkCodec where
  | raw
  | flv (codec : FlvCodec)
  deriving DecidableEq

namespace LinkCodec

/-- The codec of a link on which nothing has been read or written. -/
def fresh : CodecKind → LinkCodec
  | .raw => raw
  | .flv => flv {}

/-- Takes a frame from the front of the buffer. -/
def decode (codec : LinkCodec) (buffer : ByteArray) : Decoding LinkCodec :=
  match codec with
  | raw => ⟨(Raw.decode buffer).1, raw, (Raw.decode buffer).2⟩
  | flv codec =>
      let decoding := codec.decode buffer
      ⟨decoding.result, flv decoding.codec, decoding.buffer⟩

/-- Appends a frame to the output. -/
def encode (codec : LinkCodec) (frame : Frame) (output : ByteArray) : Encoding LinkCodec :=
  match codec with
  | raw => ⟨.ok (), raw, Raw.encode frame output⟩
  | flv codec =>
      let encoding := codec.encode frame output
      ⟨encoding.result, flv encoding.codec, encoding.output⟩

theorem decode_size_lt {codec : LinkCodec} {buffer : ByteArray} {frame : Frame}
    (h : (codec.decode buffer).result = .ok (some frame)) :
    (codec.decode buffer).buffer.size < buffer.size := by
  cases codec with
  | raw =>
      simp only [decode, Raw.decode] at h ⊢
      split at h
      · simp at h
      · next hempty =>
          rw [if_neg hempty]
          have : buffer.size ≠ 0 := by simpa [ByteArray.isEmpty] using hempty
          simp only [ByteArray.size_empty]
          omega
  | flv codec => exact FlvCodec.decode_size_lt h

/-- The outcome of decoding until nothing more comes. -/
structure Drained where
  /-- The frames taken, in the order of the stream. -/
  frames : List Frame
  /-- The error that ended it, if one did. -/
  error? : Option CodecError
  codec : LinkCodec
  buffer : ByteArray

/-- Decodes until no frame comes or an error does. -/
def drain (codec : LinkCodec) (buffer : ByteArray) : Drained :=
  let decoding := codec.decode buffer
  match _h : decoding.result with
  | .error e => ⟨[], some e, decoding.codec, decoding.buffer⟩
  | .ok none => ⟨[], none, decoding.codec, decoding.buffer⟩
  | .ok (some frame) =>
      let rest := drain decoding.codec decoding.buffer
      { rest with frames := frame :: rest.frames }
  termination_by buffer.size
  decreasing_by exact decode_size_lt _h

end LinkCodec

end LiveRelay
