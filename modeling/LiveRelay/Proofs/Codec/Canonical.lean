import LiveRelay.Proofs.Codec.Reading
import LiveRelay.Proofs.Codec.RoundTrip

/-! # Writing again what was read

A stream that is read and written again comes out in one form, whatever it looked like before:
the file header that every written stream has, and its tags with nothing in them that a frame
does not keep. In that form it stays.
-/

namespace LiveRelay

namespace Flv

namespace Tag

/-- The tag as it is written again: without flags, in no stream, and with its right size
behind it. A foreign tag stays as it is. -/
def canonical (tag : Tag) : Tag :=
  if tag.IsForeign then tag
  else
    { tag with
      type := tag.kind
      streamId := 0
      backPointer := UInt32.ofNat (tagHeaderSize + tag.payload.size)
      streamId_lt := noStream_lt }

variable (tag : Tag)

theorem isForeignTag_bytes (h : tag.IsForeign) : IsForeignTag tag.bytes := by
  refine ⟨tag.type, tagFields tag.timestamp tag.payload.size tag.streamId ++
    tag.payload.data.toList ++ BigEndian.encode 4 tag.backPointer.toNat, ?_, ?_, h⟩
  · simp only [bytes, head, ByteArray.toList_data_append, List.toList_data_toByteArray,
      List.cons_append]
  · have hfield : (tagFields tag.timestamp tag.payload.size tag.streamId ++
        tag.payload.data.toList ++ BigEndian.encode 4 tag.backPointer.toNat).take 3 =
        (tagFields tag.timestamp tag.payload.size tag.streamId).take 3 := rfl
    rw [hfield, decode_size, size_bytes]
    simp only [header, TagHeader.tagSize, tagHeaderSize, backPointerSize]
    omega

/-- The frame of a tag can be carried by a stream, and is written as the tag in canonical
form. -/
theorem frame_canonical : WellFormed tag.frame ∧ tagOf tag.frame = tag.canonical.bytes := by
  have hwritten : ∀ h : ¬ tag.IsForeign,
      tag.canonical.bytes = FlvCodec.tagBytes tag.kind tag.timestamp tag.payload := by
    intro h
    rw [canonical, if_neg h]
    exact bytes_written tag.payload_le
  unfold frame
  split_ifs with haudio hvideo hdata
  · rw [hwritten (by simp [IsForeign, haudio]), haudio]
    exact ⟨tag.payload_le, rfl⟩
  · rw [hwritten (by simp [IsForeign, hvideo]), hvideo]
    exact ⟨tag.payload_le, rfl⟩
  · rw [hwritten (by simp [IsForeign, hdata]), hdata]
    exact ⟨⟨tag.payload_le, fun name => scriptKey?_eq_some_iff⟩, rfl⟩
  · have hforeign : tag.IsForeign := by simpa [IsForeign] using ⟨haudio, hvideo, hdata⟩
    rw [canonical, if_pos hforeign]
    exact ⟨⟨rfl, tag.isForeignTag_bytes hforeign⟩, rfl⟩

end Tag

/-- The stream that is written for tags. -/
def writtenStream (tags : List Tag) : ByteArray :=
  if tags = [] then .empty
  else fileHeader.toByteArray ++ LinkCodec.joined (tags.map fun tag => tag.canonical.bytes)

end Flv

namespace LinkCodec

open Flv

theorem wellFormed_frames (tags : List Tag) : ∀ frame ∈ tags.map Tag.frame, WellFormed frame := by
  intro frame hframe
  obtain ⟨tag, -, rfl⟩ := List.mem_map.mp hframe
  exact tag.frame_canonical.1

/-- Whatever is read from a stream can be carried by one. -/
theorem wellFormed_of_reads {stream rest : ByteArray} {frames : List Frame}
    {fault? : Option StreamFault} (h : Reads stream frames fault? rest) :
    ∀ frame ∈ frames, WellFormed frame := by
  cases h with
  | @parsed tags => exact wellFormed_frames tags
  | faulty => nofun

theorem encodeAll_frames (tags : List Tag) :
    (encodeAll (fresh .flv) (tags.map Tag.frame)).output = writtenStream tags := by
  have htags : (tags.map Tag.frame).map tagOf = tags.map fun tag => tag.canonical.bytes := by
    rw [List.map_map]
    exact List.map_congr_left fun tag _ => tag.frame_canonical.2
  rw [(encodeAll_wellFormed (wellFormed_frames tags)).2, htags, writtenStream]
  simp only [List.map_eq_nil_iff]

/-- Reading a stream and writing its frames again brings its tags into canonical form, and
changes nothing else; doing it once more changes nothing at all. -/
theorem encodeAll_drain {stream : ByteArray} (h : ((fresh .flv).drain stream).error? = none) :
    let frames := ((fresh .flv).drain stream).frames
    let written := encodeAll (fresh .flv) frames
    let again := (fresh .flv).drain written.output
    (∃ tags tail, Parses stream tags tail) ∧
      (∀ tags tail, Parses stream tags tail →
        tags.length = frames.length ∧ written.output = writtenStream tags) ∧
      written.result = .ok () ∧
      again.frames = frames ∧ again.error? = none ∧ again.buffer = .empty ∧
      (encodeAll (fresh .flv) again.frames).output = written.output := by
  intro frames written again
  obtain ⟨tags, tail, hparses⟩ := parses_of_drain h
  have hframes : ∀ tags tail, Parses stream tags tail → frames = tags.map Tag.frame := by
    intro tags tail hparses
    obtain ⟨codec, hdrain⟩ := drain_of_parses hparses
    exact congrArg Drained.frames hdrain
  have hwellFormed : ∀ frame ∈ frames, WellFormed frame := by
    rw [hframes tags tail hparses]
    exact wellFormed_frames tags
  obtain ⟨codec, hagain : again = ⟨frames, none, codec, .empty⟩⟩ := drain_encodeAll hwellFormed
  refine ⟨⟨tags, tail, hparses⟩, ?_, (encodeAll_wellFormed hwellFormed).1, ?_⟩
  · intro tags tail hparses
    have hlist := hframes tags tail hparses
    refine ⟨?_, ?_⟩
    · rw [hlist, List.length_map]
    · rw [← encodeAll_frames, ← hlist]
  · rw [hagain]
    exact ⟨rfl, rfl, rfl, rfl⟩

/-- A header with two bytes of padding, a video tag with flags, in a stream of its own and with
nothing right behind it, a tag of type 15, and two bytes of another tag. -/
def unevenStream : ByteArray :=
  [0x46, 0x4C, 0x56, 1, 0, 0, 0, 0, 11, 0xEE, 0xEE, 1, 2, 3, 4,
    0xE9, 0, 0, 1, 0, 0, 7, 9, 1, 2, 3, 0xAA, 0, 0, 0, 0,
    0xEF, 0, 0, 0, 0, 0, 0, 0, 1, 2, 3, 5, 6, 7, 8,
    8, 0].toByteArray

/-- The tags of that stream that are complete. -/
def unevenTags : List Tag :=
  [⟨0xE9, 0x09000007, 0x010203, [0xAA].toByteArray, 0, by decide, by decide⟩,
    ⟨0xEF, 0, 0x010203, .empty, 0x05060708, by decide, by decide⟩]

theorem parses_unevenStream : Parses unevenStream unevenTags [8, 0].toByteArray := by
  let header : FileHeader := ⟨0, [0xEE, 0xEE].toByteArray, 0x01020304, by decide⟩
  have hstream : unevenStream =
      header.bytes ++ (unevenTags[0].bytes ++ (unevenTags[1].bytes ++ [8, 0].toByteArray)) := by
    decide +kernel
  rw [hstream]
  exact .headed header (.tag _ (.tag _ (.tail (ne_tag_of_short (by decide)))))

theorem encodeAll_drain_unevenStream :
    ((fresh .flv).drain unevenStream).error? = none ∧
      (encodeAll (fresh .flv) ((fresh .flv).drain unevenStream).frames).output =
        [0x46, 0x4C, 0x56, 1, 5, 0, 0, 0, 9, 0, 0, 0, 0,
          9, 0, 0, 1, 0, 0, 7, 9, 0, 0, 0, 0xAA, 0, 0, 0, 12,
          0xEF, 0, 0, 0, 0, 0, 0, 0, 1, 2, 3, 5, 6, 7, 8].toByteArray := by
  obtain ⟨codec, hdrain⟩ := drain_of_parses parses_unevenStream
  have hsound : ((fresh .flv).drain unevenStream).error? = none := congrArg Drained.error? hdrain
  have hwritten := (encodeAll_drain hsound).2.1 _ _ parses_unevenStream
  exact ⟨hsound, hwritten.2.trans (by decide +kernel)⟩

end LinkCodec

end LiveRelay
