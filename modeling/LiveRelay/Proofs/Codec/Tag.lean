import Mathlib.Tactic.Common
import LiveRelay.Proofs.Codec.Drain

/-! # The bytes of a tag

A tag is written field by field, and its first eleven bytes say how it is to be read.
`WellFormed` are the frames that a tag can carry, and `WellFormed.heads` says that the tag
of such a frame stands for that frame again.
-/

namespace LiveRelay.Flv

theorem fromUTF8?_eq_some_iff {bytes : ByteArray} {text : String} :
    String.fromUTF8? bytes = some text ↔ bytes = text.toByteArray := by
  unfold String.fromUTF8?
  constructor
  · intro h
    split_ifs at h with hvalid
    cases h
    rfl
  · rintro rfl
    rw [dif_pos text.isValidUTF8]
    rfl

/-- The payload opens with a string: the marker 2, its size in two bytes, and its text. -/
def OpensWith (payload : ByteArray) (text : String) : Prop :=
  text.utf8ByteSize < Nat.pow 256 2 ∧ ∃ rest,
    payload = (2 :: BigEndian.encode 2 text.utf8ByteSize).toByteArray ++ text.toByteArray ++ rest

theorem eq_toByteArray {bytes : ByteArray} {list : List UInt8} (h : bytes.data.toList = list) :
    bytes = list.toByteArray := by
  subst h
  ext1
  simp

theorem toList_extract_zero (bytes : ByteArray) (stop : Nat) :
    (bytes.extract 0 stop).data.toList = bytes.data.toList.take stop := by
  rw [ByteArray.data_extract, Array.toList_extract, List.extract, List.drop_zero, Nat.sub_zero]

theorem opensWith_of_scriptKey? {payload : ByteArray} {text : String}
    (h : scriptKey? payload = some text) : OpensWith payload text := by
  unfold scriptKey? at h
  split at h
  next marker l₁ l₀ hbytes =>
    simp only [] at h
    split_ifs at h with hname
    obtain ⟨rfl, hstop⟩ := hname
    rw [fromUTF8?_eq_some_iff] at h
    -- The size that is written down is the size of the text, since that much was cut out.
    have hsize : text.utf8ByteSize = BigEndian.decode [l₁, l₀] := by
      rw [← String.size_toByteArray, ← h, ByteArray.size_extract]
      omega
    have hlength : BigEndian.encode 2 (BigEndian.decode [l₁, l₀]) = [l₁, l₀] :=
      BigEndian.encode_decode 2 _ rfl
    refine ⟨hsize ▸ BigEndian.decode_lt [l₁, l₀],
      payload.extract (3 + BigEndian.decode [l₁, l₀]) payload.size, ?_⟩
    rw [hsize, hlength, ← eq_toByteArray hbytes, ← h,
      ← ByteArray.extract_eq_extract_append_extract 3 (by omega) (by omega),
      ← ByteArray.extract_eq_extract_append_extract _ (by omega) hstop,
      ByteArray.extract_zero_size]
  next => cases h

theorem OpensWith.scriptKey?_eq {payload : ByteArray} {text : String}
    (h : OpensWith payload text) : scriptKey? payload = some text := by
  obtain ⟨hsize, rest, rfl⟩ := h
  obtain ⟨l₁, l₀, hcode⟩ :
      ∃ l₁ l₀, BigEndian.encode 2 text.utf8ByteSize = [l₁, l₀] := ⟨_, _, rfl⟩
  have hlength : BigEndian.decode [l₁, l₀] = text.utf8ByteSize := by
    rw [← hcode, BigEndian.decode_encode, Nat.mod_eq_of_lt hsize]
  have hhead : [2, l₁, l₀].toByteArray.size = 3 := List.size_toByteArray
  have hbytes : (([2, l₁, l₀].toByteArray ++ text.toByteArray ++ rest).extract 0 3).data.toList
      = [2, l₁, l₀] := by
    rw [ByteArray.append_assoc, ByteArray.extract_append_eq_left hhead.symm,
      List.toList_data_toByteArray]
  have hstop : 3 + text.utf8ByteSize = ([2, l₁, l₀].toByteArray ++ text.toByteArray).size := by
    rw [ByteArray.size_append, hhead, String.size_toByteArray]
  have hname : ([2, l₁, l₀].toByteArray ++ text.toByteArray ++ rest).extract 3
      (3 + text.utf8ByteSize) = text.toByteArray := by
    rw [extract_append_of_le (Nat.le_of_eq hstop)]
    exact ByteArray.extract_append_eq_right hhead.symm (by rw [hstop, ByteArray.size_append])
  have hfits : 3 + text.utf8ByteSize
      ≤ ([2, l₁, l₀].toByteArray ++ text.toByteArray ++ rest).size := by
    simp only [ByteArray.size_append] at hstop ⊢
    omega
  rw [hcode]
  unfold scriptKey?
  simp only [hbytes, hlength]
  rw [if_pos ⟨trivial, hfits⟩, hname, fromUTF8?_eq_some_iff]

theorem scriptKey?_eq_some_iff {payload : ByteArray} {text : String} :
    scriptKey? payload = some text ↔ OpensWith payload text :=
  ⟨opensWith_of_scriptKey?, OpensWith.scriptKey?_eq⟩

/-! ## Tags -/

/-- The bytes are one whole tag with this header. -/
structure TagHeader.Heads (header : TagHeader) (tag : ByteArray) : Prop where
  ofBytes : TagHeader.ofBytes? (tag.extract 0 tagHeaderSize).data.toList = some header
  size_eq : tag.size = header.tagSize

theorem nextTag_of_heads {header : TagHeader} {tag : ByteArray} (h : header.Heads tag)
    (codec : FlvCodec) (rest : ByteArray) :
    codec.nextTag (tag ++ rest) = ⟨.ok (some (header.frame tag)), codec, rest⟩ := by
  have hheader := h.ofBytes
  have hsize : header.tagSize ≤ (tag ++ rest).size := by
    rw [ByteArray.size_append, h.size_eq]
    omega
  have htag : tagHeaderSize ≤ tag.size := h.size_eq ▸ FlvCodec.tagHeaderSize_le_tagSize header
  rw [← extract_append_of_le htag] at hheader
  rw [FlvCodec.nextTag_of_header hheader hsize, ByteArray.extract_append_eq_left h.size_eq.symm,
    ByteArray.extract_append_eq_right h.size_eq.symm ByteArray.size_append]

theorem TagHeader.ofBytes?_cons (type : UInt8) (fields : List UInt8) (h : fields.length = 10) :
    TagHeader.ofBytes? (type :: fields) = some
      { kind := .ofByte type
        payloadSize := BigEndian.decode (fields.take 3)
        timestamp := UInt32.ofNat
          (BigEndian.decode ((fields.drop 6).take 1 ++ (fields.drop 3).take 3)) } := by
  match fields, h with
  | [_, _, _, _, _, _, _, _, _, _], _ => rfl

/-- The fields of a tag between its type and its payload. -/
def tagFields (timestamp : UInt32) (payloadSize streamId : Nat) : List UInt8 :=
  BigEndian.encode 3 payloadSize ++ BigEndian.encode 3 timestamp.toNat
    ++ BigEndian.encode 1 (timestamp.toNat / Nat.pow 2 24) ++ BigEndian.encode 3 streamId

/-- A tag, field by field. In front of the payload stands its size, in three bytes. -/
structure Tag where
  /-- The three upper bits are flags. -/
  type : UInt8
  /-- Milliseconds. The upper byte is written behind the three others. -/
  timestamp : UInt32
  streamId : Nat
  payload : ByteArray
  /-- What is written behind the payload: the size of the tag, if its writer got it right. -/
  backPointer : UInt32
  streamId_lt : streamId < Nat.pow 256 3
  payload_le : payload.size ≤ maxPayloadSize

namespace Tag

variable (tag : Tag)

/-- The bytes in front of the payload. -/
def head : ByteArray :=
  (tag.type :: tagFields tag.timestamp tag.payload.size tag.streamId).toByteArray

def bytes : ByteArray :=
  tag.head ++ tag.payload ++ (BigEndian.encode 4 tag.backPointer.toNat).toByteArray

def header : TagHeader where
  kind := .ofByte tag.type
  payloadSize := tag.payload.size
  timestamp := tag.timestamp

theorem size_head : tag.head.size = tagHeaderSize := List.size_toByteArray

theorem size_bytes : tag.bytes.size = tag.header.tagSize := by
  simp only [bytes, ByteArray.size_append, size_head, List.size_toByteArray,
    BigEndian.length_encode, TagHeader.tagSize, header, backPointerSize]

theorem decode_size :
    BigEndian.decode ((tagFields tag.timestamp tag.payload.size tag.streamId).take 3) =
      tag.payload.size := by
  have hlt : tag.payload.size < Nat.pow 256 3 := Nat.lt_of_le_of_lt tag.payload_le (by decide)
  have hfield : (tagFields tag.timestamp tag.payload.size tag.streamId).take 3 =
      BigEndian.encode 3 tag.payload.size := rfl
  rw [hfield, BigEndian.decode_encode, Nat.mod_eq_of_lt hlt]

theorem decode_timestamp :
    let fields := tagFields tag.timestamp tag.payload.size tag.streamId
    BigEndian.decode ((fields.drop 6).take 1 ++ (fields.drop 3).take 3) =
      tag.timestamp.toNat := by
  intro fields
  have hfields : (fields.drop 6).take 1 ++ (fields.drop 3).take 3 =
      BigEndian.encode 1 (tag.timestamp.toNat / Nat.pow 256 3) ++
        BigEndian.encode 3 tag.timestamp.toNat := rfl
  rw [hfields, ← BigEndian.encode_add, BigEndian.decode_encode,
    Nat.mod_eq_of_lt tag.timestamp.toNat_lt]

theorem heads : tag.header.Heads tag.bytes where
  ofBytes := by
    have hlength : (tagFields tag.timestamp tag.payload.size tag.streamId).length = 10 := rfl
    rw [bytes, ByteArray.append_assoc, ByteArray.extract_append_eq_left tag.size_head.symm, head,
      List.toList_data_toByteArray, TagHeader.ofBytes?_cons _ _ hlength, decode_size,
      decode_timestamp, UInt32.ofNat_toNat]
    rfl
  size_eq := tag.size_bytes

/-- The payload is cut out of the bytes again. -/
theorem extract_payload :
    tag.bytes.extract tagHeaderSize (tagHeaderSize + tag.payload.size) = tag.payload := by
  rw [bytes, extract_append_of_le]
  · exact ByteArray.extract_append_eq_right tag.size_head.symm (by rw [size_head])
  · exact Nat.le_of_eq (by rw [ByteArray.size_append, size_head])

end Tag

theorem noStream_lt : 0 < Nat.pow 256 3 := by decide

/-- The tag that is written for a payload. -/
def Tag.written (type : UInt8) (timestamp : UInt32) (payload : ByteArray)
    (h : payload.size ≤ maxPayloadSize) : Tag where
  type := type
  timestamp := timestamp
  streamId := 0
  payload := payload
  backPointer := UInt32.ofNat (tagHeaderSize + payload.size)
  streamId_lt := noStream_lt
  payload_le := h

theorem Tag.bytes_written {type : UInt8} {timestamp : UInt32} {payload : ByteArray}
    (h : payload.size ≤ maxPayloadSize) :
    (written type timestamp payload h).bytes = FlvCodec.tagBytes type timestamp payload := by
  have hfits : tagHeaderSize + payload.size < UInt32.size := by
    have hlimit : tagHeaderSize + maxPayloadSize < UInt32.size := by decide
    omega
  have hbackPointer : (UInt32.ofNat (tagHeaderSize + payload.size)).toNat =
      tagHeaderSize + payload.size := UInt32.toNat_ofNat_of_lt hfits
  simp only [bytes, written, hbackPointer]
  rfl

/-- The bytes are one whole tag, with its size field behind it, of a type that is not
audio, video or data. The three upper bits of the type do not count. -/
def IsForeignTag (tag : ByteArray) : Prop :=
  ∃ type fields, tag.data.toList = type :: fields ∧
    tag.size = BigEndian.decode (fields.take 3) + 15 ∧ type &&& 0x1F ∉ [8, 9, 18]

theorem TagKind.ofByte_eq_other {type : UInt8} (h : type &&& 0x1F ∉ [8, 9, 18]) :
    TagKind.ofByte type = .other := by
  have hmask : (type &&& 0x1F).toNat = type.toNat % 32 := by
    rw [UInt8.toNat_and]
    exact Nat.and_two_pow_sub_one_eq_mod type.toNat 5
  have hne : ∀ known ∈ [8, 9, 18], type.toNat % 32 ≠ UInt8.toNat known := by
    intro known hknown heq
    exact h (UInt8.toNat_inj.mp (hmask.trans heq) ▸ hknown)
  unfold TagKind.ofByte
  split
  next heq => exact absurd heq (hne 8 (by decide))
  next heq => exact absurd heq (hne 9 (by decide))
  next heq => exact absurd heq (hne 18 (by decide))
  next => rfl

theorem IsForeignTag.heads {tag : ByteArray} (h : IsForeignTag tag) :
    ∃ header : TagHeader, header.Heads tag ∧ header.kind = .other := by
  obtain ⟨type, fields, hbytes, hsize, hforeign⟩ := h
  have hlength : (type :: fields).length = tag.size := by
    rw [← hbytes, Array.length_toList, ByteArray.size_data]
  have hfields : (fields.take 10).length = 10 := by
    rw [List.length_cons] at hlength
    rw [List.length_take]
    omega
  have hprefix : (tag.extract 0 tagHeaderSize).data.toList = type :: fields.take 10 := by
    rw [toList_extract_zero, hbytes]
    rfl
  have hheader := TagHeader.ofBytes?_cons type _ hfields
  have hdeclared : (fields.take 10).take 3 = fields.take 3 := by
    rw [List.take_take]
    rfl
  rw [← hprefix, hdeclared] at hheader
  refine ⟨_, ⟨hheader, ?_⟩, TagKind.ofByte_eq_other hforeign⟩
  simp only [hsize, TagHeader.tagSize, tagHeaderSize, backPointerSize]
  omega

/-- The frames that a stream of tags can carry: payloads that fit a tag, data frames with
the key that their payload opens with, and raw frames that are whole tags of other types. -/
def WellFormed (frame : Frame) : Prop :=
  match frame.tag with
  | .audio => frame.payload.size ≤ maxPayloadSize
  | .video => frame.payload.size ≤ maxPayloadSize
  | .data key =>
      frame.payload.size ≤ maxPayloadSize ∧
        ∀ name, key = some name ↔ OpensWith frame.payload name
  | .raw => frame.timestamp = 0 ∧ IsForeignTag frame.payload

/-- The tag that a frame is written as. -/
def tagOf (frame : Frame) : ByteArray :=
  match FlvCodec.tagType? frame.tag with
  | none => frame.payload
  | some type => FlvCodec.tagBytes type frame.timestamp frame.payload

theorem WellFormed.heads {frame : Frame} (h : WellFormed frame) :
    ∃ header : TagHeader, header.Heads (tagOf frame) ∧ header.frame (tagOf frame) = frame := by
  obtain ⟨tag, timestamp, payload⟩ := frame
  cases tag with
  | raw =>
      obtain ⟨rfl, hforeign⟩ := h
      obtain ⟨header, hheads, hkind⟩ := hforeign.heads
      refine ⟨header, hheads, ?_⟩
      simp only [TagHeader.frame, hkind]
      rfl
  | audio =>
      let written : Tag := .written 8 timestamp payload h
      have hbytes : tagOf (.audio timestamp payload) = written.bytes := (Tag.bytes_written h).symm
      exact ⟨_, hbytes ▸ written.heads,
        hbytes ▸ congrArg (Frame.audio timestamp) written.extract_payload⟩
  | video =>
      let written : Tag := .written 9 timestamp payload h
      have hbytes : tagOf (.video timestamp payload) = written.bytes := (Tag.bytes_written h).symm
      exact ⟨_, hbytes ▸ written.heads,
        hbytes ▸ congrArg (Frame.video timestamp) written.extract_payload⟩
  | data key =>
      obtain ⟨hsize, hkey⟩ := h
      have hscript : scriptKey? payload = key := by
        apply Option.ext
        intro name
        exact scriptKey?_eq_some_iff.trans (hkey name).symm
      let written : Tag := .written 18 timestamp payload hsize
      have hbytes : tagOf (.data timestamp key payload) = written.bytes :=
        (Tag.bytes_written hsize).symm
      have hframe := congrArg (fun payload => Frame.data timestamp (scriptKey? payload) payload)
        written.extract_payload
      refine ⟨_, hbytes ▸ written.heads, ?_⟩
      rw [← hscript]
      exact hbytes ▸ hframe

end LiveRelay.Flv
