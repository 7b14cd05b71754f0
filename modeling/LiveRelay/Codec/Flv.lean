import LiveRelay.BigEndian
import LiveRelay.Codec.Basic

/-! # FLV framing

A stream may open with a file header, and then holds one tag after the other:

    file header: "FLV"  version(1)  flags(1)  data offset(4)  then up to the offset, and 4 bytes
    tag:         type(1)  size(3)  time(3)  time extension(1)  stream(3)  payload(size)  4 bytes

Tags of type 8, 9 and 18 are audio, video and data frames. A tag of any other type
is passed on whole, as a raw frame.
-/

namespace LiveRelay.Flv

/-- The text `FLV`, which opens a file header. -/
def signature : List UInt8 := [0x46, 0x4C, 0x56]

/-- Bytes of a file header without padding. -/
def fileHeaderSize : Nat := 9

/-- Bytes of the size field that follows a file header and every tag. -/
def backPointerSize : Nat := 4

/-- The largest data offset that a file header may give. -/
def maxDataOffset : Nat := fileHeaderSize + 1024

/-- Bytes of a tag in front of its payload. -/
def tagHeaderSize : Nat := 11

/-- The largest payload that the size field of a tag can give. -/
def maxPayloadSize : Nat := 0xFFFFFF

/-- The file header that opens every written stream: version 1, audio and video
present, no padding, and the size field of the tag that is not there. -/
def fileHeader : List UInt8 :=
  signature ++ [1, 0x05] ++ BigEndian.encode 4 fileHeaderSize ++ BigEndian.encode 4 0

/-- What the type of a tag says about its payload. -/
inductive TagKind where
  | audio
  | video
  | script
  | other
  deriving DecidableEq

/-- The three upper bits of a type byte are flags and do not count. -/
def TagKind.ofByte (byte : UInt8) : TagKind :=
  match byte.toNat % 32 with
  | 8 => .audio
  | 9 => .video
  | 18 => .script
  | _ => .other

/-- The fields of a tag that stand in front of its payload and matter to a frame. -/
structure TagHeader where
  kind : TagKind
  payloadSize : Nat
  timestamp : UInt32
  deriving DecidableEq

namespace TagHeader

/-- Reads the eleven bytes of a tag header; `none` if there are not that many. -/
def ofBytes? : List UInt8 → Option TagHeader
  | [type, s₂, s₁, s₀, t₂, t₁, t₀, t₃, _, _, _] => some
      { kind := .ofByte type
        payloadSize := BigEndian.decode [s₂, s₁, s₀]
        timestamp := UInt32.ofNat (BigEndian.decode [t₃, t₂, t₁, t₀]) }
  | _ => none

/-- Bytes of the whole tag, with the size field behind it. -/
def tagSize (header : TagHeader) : Nat :=
  tagHeaderSize + header.payloadSize + backPointerSize

end TagHeader

/-- The name that opens the payload of a script tag: the marker 2, a length of two
bytes, and that many bytes of valid UTF-8. -/
def scriptKey? (payload : ByteArray) : Option String :=
  match (payload.extract 0 3).data.toList with
  | [marker, l₁, l₀] =>
      let stop := 3 + BigEndian.decode [l₁, l₀]
      if marker = 2 ∧ stop ≤ payload.size then String.fromUTF8? (payload.extract 3 stop)
      else none
  | _ => none

/-- The frame that a complete tag stands for. -/
def TagHeader.frame (header : TagHeader) (tag : ByteArray) : Frame :=
  let payload := tag.extract tagHeaderSize (tagHeaderSize + header.payloadSize)
  match header.kind with
  | .audio => .audio header.timestamp payload
  | .video => .video header.timestamp payload
  | .script => .data header.timestamp (scriptKey? payload) payload
  | .other => .raw tag

/-- How a stream opens, as far as its first bytes tell. -/
inductive Opening where
  /-- The stream starts with a tag. -/
  | headerless
  /-- More bytes are needed to tell. -/
  | undecided
  /-- A file header, after which tags start at `length`. -/
  | header (length : Nat)
  | faulty (fault : StreamFault)
  deriving DecidableEq

/-- Judges the first bytes of a stream. A header is judged as soon as its nine fixed
bytes are there, and is only complete with its padding and the size field. -/
def Opening.ofBytes (bytes : ByteArray) : Opening :=
  if (bytes.extract 0 signature.length).data.toList.isPrefixOf signature then
    match (bytes.extract 0 fileHeaderSize).data.toList with
    | [_, _, _, version, _, d₃, d₂, d₁, d₀] =>
        let offset := BigEndian.decode [d₃, d₂, d₁, d₀]
        if version ≠ 1 then .faulty (.unsupportedVersion version.toNat)
        else if offset < fileHeaderSize then .faulty (.shortDataOffset offset)
        else if maxDataOffset < offset then .faulty (.longDataOffset offset maxDataOffset)
        else if bytes.size < offset + backPointerSize then .undecided
        else .header (offset + backPointerSize)
    | _ => .undecided
  else .headerless

/-- Whether the file header has been dealt with. -/
inductive Stage where
  | start
  | tags
  deriving DecidableEq

end Flv

/-- The state of the FLV codec on one link. -/
structure FlvCodec where
  stage : Flv.Stage := .start
  headerWritten : Bool := false
  deriving DecidableEq

namespace FlvCodec

open Flv

/-- Takes a tag from the front of the buffer, if it is all there. -/
def nextTag (codec : FlvCodec) (buffer : ByteArray) : Decoding FlvCodec :=
  match TagHeader.ofBytes? (buffer.extract 0 tagHeaderSize).data.toList with
  | none => ⟨.ok none, codec, buffer⟩
  | some header =>
      if buffer.size < header.tagSize then ⟨.ok none, codec, buffer⟩
      else ⟨.ok (some (header.frame (buffer.extract 0 header.tagSize))), codec,
        buffer.extract header.tagSize buffer.size⟩

def decode (codec : FlvCodec) (buffer : ByteArray) : Decoding FlvCodec :=
  match codec.stage with
  | .tags => codec.nextTag buffer
  | .start =>
      if buffer.isEmpty then ⟨.ok none, codec, buffer⟩
      else
        match Opening.ofBytes buffer with
        | .undecided => ⟨.ok none, codec, buffer⟩
        | .faulty fault => ⟨.error (.invalid fault), codec, buffer⟩
        | .headerless => nextTag { codec with stage := .tags } buffer
        | .header length =>
            nextTag { codec with stage := .tags } (buffer.extract length buffer.size)

/-- The type byte of the tag that carries a frame; a raw frame is a tag already. -/
def tagType? : FrameTag → Option UInt8
  | .audio => some 8
  | .video => some 9
  | .data _ => some 18
  | .raw => none

/-- The bytes of a tag. -/
def tagBytes (type : UInt8) (timestamp : UInt32) (payload : ByteArray) : ByteArray :=
  let size := payload.size
  let time := timestamp.toNat
  (type :: BigEndian.encode 3 size ++ BigEndian.encode 3 time
      ++ BigEndian.encode 1 (time / Nat.pow 2 24) ++ BigEndian.encode 3 0).toByteArray
    ++ payload ++ (BigEndian.encode 4 (tagHeaderSize + size)).toByteArray

/-- Appends a frame, and before the first one the file header. A payload that no tag
can hold is refused before anything is written. -/
def encode (codec : FlvCodec) (frame : Frame) (output : ByteArray) : Encoding FlvCodec :=
  let opened := if codec.headerWritten then output else output ++ fileHeader.toByteArray
  match tagType? frame.tag with
  | none => ⟨.ok (), { codec with headerWritten := true }, opened ++ frame.payload⟩
  | some type =>
      if maxPayloadSize < frame.payload.size then
        ⟨.error (.frameTooLarge frame.payload.size), codec, output⟩
      else
        ⟨.ok (), { codec with headerWritten := true },
          opened ++ tagBytes type frame.timestamp frame.payload⟩

end FlvCodec

end LiveRelay
