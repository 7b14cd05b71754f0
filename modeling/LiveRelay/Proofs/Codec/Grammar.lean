import LiveRelay.Proofs.Codec.Encodable
import LiveRelay.Proofs.Codec.Tag

/-! # The grammar of a stream of tags

What a stream looks like is said here field by field and without a reader: it may open with
a file header, then tags follow one another, and it may break off anywhere. A reader that
accepts a stream takes the frames of its tags, and leaves what stands behind the last of them
(`drain_of_parses`, `parses_of_drain`). A stream it does not accept states a faulty header
(`parses_or_headerFault`).
-/

namespace LiveRelay.Flv

/-! ## Streams -/

/-- A file header, field by field. Its padding stands between the nine bytes that every
header has and the size of the tag that is not there. -/
structure FileHeader where
  flags : UInt8
  padding : ByteArray
  backPointer : UInt32
  padding_le : fileHeaderSize + padding.size ≤ maxDataOffset

/-- The first nine bytes of a header, whatever it says in them. -/
def statedHeader (version flags : UInt8) (offset : Nat) : List UInt8 :=
  signature ++ [version, flags] ++ BigEndian.encode 4 offset

/-- The first nine bytes of a header with so many bytes of padding. -/
def fixedHeader (flags : UInt8) (padding : Nat) : List UInt8 :=
  signature ++ [1, flags] ++ BigEndian.encode 4 (fileHeaderSize + padding)

def FileHeader.bytes (header : FileHeader) : ByteArray :=
  (fixedHeader header.flags header.padding.size).toByteArray ++ header.padding
    ++ (BigEndian.encode 4 header.backPointer.toNat).toByteArray

/-- The first bytes of the stream are the signature of a file header, as far as it goes. -/
def OpensLikeHeader (stream : ByteArray) : Prop :=
  (stream.extract 0 signature.length).data.toList <+: signature

/-- The stream ends before it is clear where its tags begin. -/
inductive BreaksOff : ByteArray → Prop
  | early {stream : ByteArray} (h : OpensLikeHeader stream)
      (hshort : stream.size < fileHeaderSize) : BreaksOff stream
  /-- The padding or what follows it is not complete. -/
  | late (flags : UInt8) {padding : Nat} (h : fileHeaderSize + padding ≤ maxDataOffset)
      {rest : ByteArray} (hshort : rest.size < padding + backPointerSize) :
      BreaksOff ((fixedHeader flags padding).toByteArray ++ rest)

/-- The first nine bytes of a header are there, and what they say is out of bounds. The
version counts before the offset. -/
inductive HeaderFault : ByteArray → StreamFault → Prop
  | version {version : UInt8} (h : version ≠ 1) (flags : UInt8) {offset : Nat}
      (hoffset : offset < Nat.pow 256 4) (rest : ByteArray) :
      HeaderFault ((statedHeader version flags offset).toByteArray ++ rest)
        (.unsupportedVersion version.toNat)
  | short (flags : UInt8) {offset : Nat} (h : offset < fileHeaderSize) (rest : ByteArray) :
      HeaderFault ((statedHeader 1 flags offset).toByteArray ++ rest) (.shortDataOffset offset)
  | long (flags : UInt8) {offset : Nat} (h : maxDataOffset < offset)
      (hoffset : offset < Nat.pow 256 4) (rest : ByteArray) :
      HeaderFault ((statedHeader 1 flags offset).toByteArray ++ rest)
        (.longDataOffset offset maxDataOffset)

/-- The bytes are these tags, one behind the other, and then `tail`, which does not begin
with a whole tag. -/
inductive IsTags : ByteArray → List Tag → ByteArray → Prop
  | tail {tail : ByteArray} (h : ∀ (tag : Tag) (rest : ByteArray), tail ≠ tag.bytes ++ rest) :
      IsTags tail [] tail
  | tag (tag : Tag) {rest : ByteArray} {tags : List Tag} {tail : ByteArray}
      (h : IsTags rest tags tail) : IsTags (tag.bytes ++ rest) (tag :: tags) tail

/-- The tags of a stream, and what stands behind the last of them. -/
inductive Parses : ByteArray → List Tag → ByteArray → Prop
  | unopened {stream : ByteArray} (h : BreaksOff stream) : Parses stream [] stream
  | headerless {stream : ByteArray} {tags : List Tag} {tail : ByteArray}
      (h : ¬ OpensLikeHeader stream) (htags : IsTags stream tags tail) : Parses stream tags tail
  | headed (header : FileHeader) {rest : ByteArray} {tags : List Tag} {tail : ByteArray}
      (htags : IsTags rest tags tail) : Parses (header.bytes ++ rest) tags tail

/-! ## Tags -/

namespace Tag

variable (tag : Tag)

/-- The type without its flags. -/
def kind : UInt8 := tag.type &&& 0x1F

/-- Neither audio nor video nor data. -/
def IsForeign : Prop := tag.kind ∉ [8, 9, 18]

instance : Decidable tag.IsForeign := inferInstanceAs (Decidable (_ ∉ _))

/-- The frame that the tag stands for. A foreign tag is passed on whole. -/
def frame : Frame :=
  if tag.kind = 8 then .audio tag.timestamp tag.payload
  else if tag.kind = 9 then .video tag.timestamp tag.payload
  else if tag.kind = 18 then .data tag.timestamp (scriptKey? tag.payload) tag.payload
  else .raw tag.bytes

end Tag

theorem TagKind.ofByte_mask (type : UInt8) : ofByte (type &&& 0x1F) = ofByte type := by
  have hmask : (type &&& 0x1F).toNat = type.toNat % 32 := by
    rw [UInt8.toNat_and]
    exact Nat.and_two_pow_sub_one_eq_mod type.toNat 5
  rw [ofByte, hmask, Nat.mod_mod, ofByte]

theorem Tag.frame_header (tag : Tag) : tag.header.frame tag.bytes = tag.frame := by
  have hkind : TagKind.ofByte tag.type = TagKind.ofByte tag.kind := (TagKind.ofByte_mask _).symm
  have hpayload := tag.extract_payload
  unfold TagHeader.frame Tag.frame
  simp only [header, hpayload, hkind]
  split_ifs with haudio hvideo hdata
  · rw [haudio]
    rfl
  · rw [hvideo]
    rfl
  · rw [hdata]
    rfl
  · have hforeign : tag.type &&& 0x1F ∉ [8, 9, 18] := by
      simpa [kind] using ⟨haudio, hvideo, hdata⟩
    rw [← hkind, TagKind.ofByte_eq_other hforeign]

theorem nextTag_bytes (codec : FlvCodec) (tag : Tag) (rest : ByteArray) :
    codec.nextTag (tag.bytes ++ rest) = ⟨.ok (some tag.frame), codec, rest⟩ := by
  rw [nextTag_of_heads tag.heads, tag.frame_header]

/-- Four bytes that were read as a number are written again in two parts. -/
theorem encode_timestamp (low : List UInt8) (h : low.length = 3) (high : UInt8) :
    let timestamp := UInt32.ofNat (BigEndian.decode (high :: low))
    BigEndian.encode 3 timestamp.toNat = low ∧
      BigEndian.encode 1 (timestamp.toNat / Nat.pow 2 24) = [high] := by
  intro timestamp
  have hlength : (high :: low).length = 4 := congrArg Nat.succ h
  have hlt : BigEndian.decode (high :: low) < UInt32.size :=
    Nat.lt_of_lt_of_eq (BigEndian.decode_lt _) (congrArg (Nat.pow 256) hlength)
  have hread : BigEndian.encode (1 + 3) (BigEndian.decode (high :: low)) = [high] ++ low :=
    BigEndian.encode_decode 4 _ hlength
  rw [BigEndian.encode_add] at hread
  obtain ⟨hhigh, hlow⟩ := List.append_inj hread (BigEndian.length_encode 1 _)
  have htimestamp : timestamp.toNat = BigEndian.decode (high :: low) :=
    UInt32.toNat_ofNat_of_lt' hlt
  rw [htimestamp]
  exact ⟨hlow, hhigh⟩

/-- Eleven bytes that were read as the header of a tag are its fields. -/
theorem fields_of_header {bytes : List UInt8} {header : TagHeader}
    (h : TagHeader.ofBytes? bytes = some header) :
    ∃ type streamId, streamId < Nat.pow 256 3 ∧
      bytes = type :: tagFields header.timestamp header.payloadSize streamId := by
  unfold TagHeader.ofBytes? at h
  split at h
  next type s₂ s₁ s₀ t₂ t₁ t₀ t₃ i₂ i₁ i₀ =>
    cases h
    refine ⟨type, BigEndian.decode [i₂, i₁, i₀], BigEndian.decode_lt _, ?_⟩
    obtain ⟨htime, hextension⟩ := encode_timestamp [t₂, t₁, t₀] rfl t₃
    rw [tagFields, BigEndian.encode_decode 3 [s₂, s₁, s₀] rfl, htime, hextension,
      BigEndian.encode_decode 3 [i₂, i₁, i₀] rfl]
    rfl
  next => cases h

/-- Where a whole tag lies in front, its bytes are those of a tag. -/
theorem exists_tag {buffer : ByteArray} {header : TagHeader}
    (hheader : TagHeader.ofBytes? (buffer.extract 0 tagHeaderSize).data.toList = some header)
    (hsize : header.tagSize ≤ buffer.size) :
    ∃ tag : Tag, buffer.extract 0 header.tagSize = tag.bytes := by
  obtain ⟨type, streamId, hstreamId, hfields⟩ := fields_of_header hheader
  let stop := tagHeaderSize + header.payloadSize
  have hpayload : (buffer.extract tagHeaderSize stop).size = header.payloadSize := by
    simp only [ByteArray.size_extract, TagHeader.tagSize, stop] at hsize ⊢
    omega
  have hcut : header.tagSize = stop + 4 := rfl
  generalize hlast : (buffer.extract stop header.tagSize).data.toList = last
  have hlength : last.length = 4 := by
    rw [← hlast, Array.length_toList, ByteArray.size_data, ByteArray.size_extract]
    omega
  have hbackPointer : BigEndian.decode last < UInt32.size :=
    Nat.lt_of_lt_of_eq (BigEndian.decode_lt last) (congrArg (Nat.pow 256) hlength)
  refine ⟨⟨type, header.timestamp, streamId, buffer.extract tagHeaderSize stop,
    UInt32.ofNat (BigEndian.decode last), hstreamId, ?_⟩, ?_⟩
  · rw [hpayload]
    exact TagHeader.payloadSize_le hheader
  · simp only [Tag.bytes, Tag.head, hpayload, UInt32.toNat_ofNat_of_lt' hbackPointer]
    rw [BigEndian.encode_decode 4 last hlength, ← eq_toByteArray hlast, ← eq_toByteArray hfields,
      ← ByteArray.extract_eq_extract_append_extract tagHeaderSize (by omega) (by omega),
      ← ByteArray.extract_eq_extract_append_extract stop (by omega) (by omega)]

/-- A reader waits exactly while no whole tag lies in front. -/
theorem nextTag_of_no_tag {buffer : ByteArray}
    (h : ∀ (tag : Tag) (rest : ByteArray), buffer ≠ tag.bytes ++ rest) (codec : FlvCodec) :
    codec.nextTag buffer = ⟨.ok none, codec, buffer⟩ := by
  obtain hnone | ⟨header, hheader, hsize, -⟩ := codec.nextTag_cases buffer
  · exact hnone
  · obtain ⟨tag, hbytes⟩ := exists_tag hheader hsize
    refine absurd ?_ (h tag (buffer.extract header.tagSize buffer.size))
    rw [← hbytes, ← ByteArray.extract_eq_extract_append_extract _ (Nat.zero_le _) hsize,
      ByteArray.extract_zero_size]

/-- A tag has at least fifteen bytes. -/
theorem ne_tag_of_short {tail : ByteArray} (h : tail.size < tagHeaderSize + backPointerSize)
    (tag : Tag) (rest : ByteArray) : tail ≠ tag.bytes ++ rest := by
  rintro rfl
  rw [ByteArray.size_append, tag.size_bytes, TagHeader.tagSize] at h
  omega

theorem drain_of_isTags {stream tail : ByteArray} {tags : List Tag} (h : IsTags stream tags tail)
    (headerWritten : Bool) :
    (LinkCodec.flv ⟨.tags, headerWritten⟩).drain stream =
      ⟨tags.map Tag.frame, none, .flv ⟨.tags, headerWritten⟩, tail⟩ := by
  induction h with
  | tail h =>
      rw [LinkCodec.drain_eq]
      simp only [LinkCodec.decode, FlvCodec.decode_tags, nextTag_of_no_tag h]
      rfl
  | tag tag h ih =>
      rw [LinkCodec.drain_eq]
      simp only [LinkCodec.decode, FlvCodec.decode_tags, nextTag_bytes,
        LinkCodec.Drained.ofDecoding, ih]
      rfl

/-- Any bytes are tags, as far as they go. -/
theorem exists_isTags (stream : ByteArray) : ∃ tags tail, IsTags stream tags tail := by
  induction hsize : stream.size using Nat.strongRecOn generalizing stream with
  | ind size ih =>
      by_cases h : ∃ (tag : Tag) (rest : ByteArray), stream = tag.bytes ++ rest
      · obtain ⟨tag, rest, rfl⟩ := h
        have hlt : rest.size < size := by
          rw [← hsize, ByteArray.size_append, tag.size_bytes, TagHeader.tagSize, tagHeaderSize]
          omega
        obtain ⟨tags, tail, htags⟩ := ih rest.size hlt rest rfl
        exact ⟨tag :: tags, tail, .tag tag htags⟩
      · simp only [not_exists] at h
        exact ⟨[], stream, .tail h⟩

/-! ## File headers -/

/-- The fixed bytes of a header are judged by what they say, one field after the other. -/
theorem opening_statedHeader (version flags : UInt8) {offset : Nat}
    (h : offset < Nat.pow 256 4) (rest : ByteArray) :
    Opening.ofBytes ((statedHeader version flags offset).toByteArray ++ rest) =
      if version ≠ 1 then .faulty (.unsupportedVersion version.toNat)
      else if offset < fileHeaderSize then .faulty (.shortDataOffset offset)
      else if maxDataOffset < offset then .faulty (.longDataOffset offset maxDataOffset)
      else if fileHeaderSize + rest.size < offset + backPointerSize then .undecided
      else .header (offset + backPointerSize) := by
  obtain ⟨d₃, d₂, d₁, d₀, hoffset⟩ :
      ∃ d₃ d₂ d₁ d₀, BigEndian.encode 4 offset = [d₃, d₂, d₁, d₀] := ⟨_, _, _, _, rfl⟩
  have hdecode : BigEndian.decode [d₃, d₂, d₁, d₀] = offset := by
    rw [← hoffset, BigEndian.decode_encode, Nat.mod_eq_of_lt h]
  have hbytes : ((statedHeader version flags offset).toByteArray ++ rest).data.toList =
      signature ++ [version, flags] ++ [d₃, d₂, d₁, d₀] ++ rest.data.toList := by
    rw [ByteArray.toList_data_append, List.toList_data_toByteArray, statedHeader, hoffset]
  have hsize : ((statedHeader version flags offset).toByteArray ++ rest).size =
      fileHeaderSize + rest.size := by
    rw [ByteArray.size_append, List.size_toByteArray, statedHeader, hoffset]
    rfl
  unfold Opening.ofBytes
  rw [toList_extract_zero, toList_extract_zero, hbytes, hsize]
  have hnine : (signature ++ [version, flags] ++ [d₃, d₂, d₁, d₀] ++ rest.data.toList).take
      fileHeaderSize = [0x46, 0x4C, 0x56, version, flags, d₃, d₂, d₁, d₀] := rfl
  have hthree : ((signature ++ [version, flags] ++ [d₃, d₂, d₁, d₀] ++ rest.data.toList).take
      signature.length).isPrefixOf signature = true := rfl
  rw [if_pos hthree, hnine]
  simp only [hdecode]

theorem opening_fixedHeader (flags : UInt8) {padding : Nat}
    (h : fileHeaderSize + padding ≤ maxDataOffset) (rest : ByteArray) :
    Opening.ofBytes ((fixedHeader flags padding).toByteArray ++ rest) =
      if rest.size < padding + backPointerSize then .undecided
      else .header (fileHeaderSize + padding + backPointerSize) := by
  have hstated := opening_statedHeader 1 flags (Nat.lt_of_le_of_lt h (by decide)) rest
  rw [if_neg (by decide), if_neg (by omega), if_neg (by omega)] at hstated
  simp only [Nat.add_assoc, Nat.add_lt_add_iff_left] at hstated ⊢
  exact hstated

/-- Nine bytes of a stream that opens with the signature state a header. -/
theorem exists_statedHeader {stream : ByteArray} (h : OpensLikeHeader stream)
    (hlong : fileHeaderSize ≤ stream.size) :
    ∃ version flags offset rest, offset < Nat.pow 256 4 ∧
      stream = (statedHeader version flags offset).toByteArray ++ rest := by
  generalize hnine : (stream.extract 0 fileHeaderSize).data.toList = nine
  have hlength : nine.length = 9 := by
    rw [← hnine, length_toList_extract]
    exact Nat.min_eq_left hlong
  match nine, hlength with
  | [s₂, s₁, s₀, version, flags, d₃, d₂, d₁, d₀], _ =>
    have hthree : [s₂, s₁, s₀] = signature := by
      have htake : (stream.extract 0 signature.length).data.toList = [s₂, s₁, s₀] := by
        rw [toList_extract_zero] at hnine ⊢
        rw [← Nat.min_eq_left (show signature.length ≤ fileHeaderSize by decide),
          ← List.take_take, hnine]
        rfl
      rw [OpensLikeHeader, htake] at h
      exact h.eq_of_length rfl
    refine ⟨version, flags, BigEndian.decode [d₃, d₂, d₁, d₀],
      stream.extract fileHeaderSize stream.size, BigEndian.decode_lt [d₃, d₂, d₁, d₀], ?_⟩
    have hstated : (statedHeader version flags (BigEndian.decode [d₃, d₂, d₁, d₀])).toByteArray =
        stream.extract 0 fileHeaderSize := by
      rw [eq_toByteArray hnine, statedHeader, BigEndian.encode_decode 4 _ rfl, ← hthree]
      rfl
    rw [hstated, ← ByteArray.extract_eq_extract_append_extract _ (Nat.zero_le _) hlong,
      ByteArray.extract_zero_size]

theorem exists_fileHeader (flags : UInt8) {padding : Nat}
    (h : fileHeaderSize + padding ≤ maxDataOffset) {rest : ByteArray}
    (hlong : padding + backPointerSize ≤ rest.size) :
    ∃ (header : FileHeader) (tags : ByteArray),
      (fixedHeader flags padding).toByteArray ++ rest = header.bytes ++ tags := by
  have hpadding : (rest.extract 0 padding).size = padding := by
    rw [ByteArray.size_extract]
    omega
  generalize hlast : (rest.extract padding (padding + backPointerSize)).data.toList = last
  have hlength : last.length = 4 := by
    rw [← hlast, Array.length_toList, ByteArray.size_data, ByteArray.size_extract]
    unfold backPointerSize at hlong ⊢
    omega
  have hbackPointer : BigEndian.decode last < UInt32.size :=
    Nat.lt_of_lt_of_eq (BigEndian.decode_lt last) (congrArg (Nat.pow 256) hlength)
  refine ⟨⟨flags, rest.extract 0 padding, UInt32.ofNat (BigEndian.decode last), ?_⟩,
    rest.extract (padding + backPointerSize) rest.size, ?_⟩
  · rw [hpadding]
    exact h
  · simp only [FileHeader.bytes, hpadding, UInt32.toNat_ofNat_of_lt' hbackPointer]
    rw [BigEndian.encode_decode 4 last hlength, ← eq_toByteArray hlast, ByteArray.append_assoc,
      ByteArray.append_assoc,
      ← ByteArray.extract_eq_extract_append_extract _ (Nat.le_add_right _ _) hlong,
      ← ByteArray.extract_eq_extract_append_extract _ (Nat.zero_le _) (by omega),
      ByteArray.extract_zero_size]

/-- A header opens the stream as soon as its tags can begin. -/
theorem opening_bytes (header : FileHeader) (rest : ByteArray) :
    Opening.ofBytes (header.bytes ++ rest) = .header header.bytes.size := by
  have hsize : header.bytes.size = fileHeaderSize + header.padding.size + backPointerSize := by
    simp only [FileHeader.bytes, ByteArray.size_append, List.size_toByteArray,
      BigEndian.length_encode, backPointerSize]
    rfl
  have hlong : ¬ (header.padding ++ (BigEndian.encode 4 header.backPointer.toNat).toByteArray
      ++ rest).size < header.padding.size + backPointerSize := by
    simp only [ByteArray.size_append, List.size_toByteArray, BigEndian.length_encode,
      backPointerSize]
    omega
  have hopening := opening_fixedHeader header.flags header.padding_le
    (header.padding ++ (BigEndian.encode 4 header.backPointer.toNat).toByteArray ++ rest)
  rw [if_neg hlong, ← ByteArray.append_assoc, ← ByteArray.append_assoc] at hopening
  rw [hsize]
  exact hopening

theorem opening_headerless {stream : ByteArray} (h : ¬ OpensLikeHeader stream) :
    Opening.ofBytes stream = .headerless := by
  unfold Opening.ofBytes
  rw [if_neg (by rwa [List.isPrefixOf_iff_prefix])]

theorem opening_breaksOff {stream : ByteArray} (h : BreaksOff stream) :
    Opening.ofBytes stream = .undecided := by
  cases h with
  | late flags h hshort => rw [opening_fixedHeader flags h, if_pos hshort]
  | early h hshort =>
      unfold Opening.ofBytes
      rw [if_pos (by rwa [List.isPrefixOf_iff_prefix])]
      split
      next hnine =>
        have hlength := congrArg List.length hnine
        rw [length_toList_extract] at hlength
        simp only [List.length_cons, List.length_nil, fileHeaderSize] at hlength hshort
        omega
      next => rfl

theorem opening_headerFault {stream : ByteArray} {fault : StreamFault}
    (h : HeaderFault stream fault) : Opening.ofBytes stream = .faulty fault := by
  cases h with
  | version h flags hoffset rest => rw [opening_statedHeader _ _ hoffset, if_pos h]
  | short flags h rest =>
      rw [opening_statedHeader _ _ (Nat.lt_trans h (by decide)), if_neg (by decide), if_pos h]
  | long flags h hoffset rest =>
      have hnotShort : fileHeaderSize ≤ maxDataOffset := by decide
      rw [opening_statedHeader _ _ hoffset, if_neg (by decide), if_neg (by omega), if_pos h]

/-- A stream has no header, or breaks off in it, or has a faulty one, or has all of it. -/
theorem opening_cases (stream : ByteArray) :
    ¬ OpensLikeHeader stream ∨ BreaksOff stream ∨ (∃ fault, HeaderFault stream fault) ∨
      ∃ (header : FileHeader) (rest : ByteArray), stream = header.bytes ++ rest := by
  by_cases hsignature : OpensLikeHeader stream
  case neg => exact .inl hsignature
  by_cases hshort : stream.size < fileHeaderSize
  case pos => exact .inr (.inl (.early hsignature hshort))
  obtain ⟨version, flags, offset, rest, hoffset, rfl⟩ :=
    exists_statedHeader hsignature (Nat.le_of_not_lt hshort)
  right
  by_cases hversion : version = 1
  case neg => exact .inr (.inl ⟨_, .version hversion flags hoffset rest⟩)
  subst hversion
  by_cases hsmall : offset < fileHeaderSize
  case pos => exact .inr (.inl ⟨_, .short flags hsmall rest⟩)
  by_cases hlarge : maxDataOffset < offset
  case pos => exact .inr (.inl ⟨_, .long flags hlarge hoffset rest⟩)
  obtain ⟨padding, rfl⟩ := Nat.exists_eq_add_of_le (Nat.le_of_not_lt hsmall)
  have hpadding := Nat.le_of_not_lt hlarge
  by_cases hlate : rest.size < padding + backPointerSize
  · exact .inl (.late flags hpadding hlate)
  · exact .inr (.inr (exists_fileHeader flags hpadding (Nat.le_of_not_lt hlate)))

/-! ## Readers -/

theorem drain_headerless {stream : ByteArray} (h : ¬ OpensLikeHeader stream) :
    (LinkCodec.fresh .flv).drain stream = (LinkCodec.flv ⟨.tags, false⟩).drain stream := by
  rw [LinkCodec.fresh, LinkCodec.drain_eq, LinkCodec.drain_eq]
  simp only [LinkCodec.decode, FlvCodec.decode_start, opening_headerless h, FlvCodec.decode_tags]

theorem drain_headed (header : FileHeader) (rest : ByteArray) :
    (LinkCodec.fresh .flv).drain (header.bytes ++ rest) =
      (LinkCodec.flv ⟨.tags, false⟩).drain rest := by
  have hskip : (header.bytes ++ rest).extract header.bytes.size (header.bytes ++ rest).size =
      rest := ByteArray.extract_append_eq_right rfl ByteArray.size_append
  rw [LinkCodec.fresh, LinkCodec.drain_eq, LinkCodec.drain_eq]
  simp only [LinkCodec.decode, FlvCodec.decode_start, opening_bytes, hskip, FlvCodec.decode_tags]

/-- A reader takes the frames of the tags of a stream, and leaves what stands behind them. -/
theorem drain_of_parses {stream tail : ByteArray} {tags : List Tag} (h : Parses stream tags tail) :
    ∃ codec, (LinkCodec.fresh .flv).drain stream = ⟨tags.map Tag.frame, none, codec, tail⟩ := by
  cases h with
  | unopened h =>
      refine ⟨.fresh .flv, ?_⟩
      rw [LinkCodec.fresh, LinkCodec.drain_eq]
      simp only [LinkCodec.decode, FlvCodec.decode_start, opening_breaksOff h]
      rfl
  | headerless h htags => exact ⟨_, (drain_headerless h).trans (drain_of_isTags htags false)⟩
  | headed header htags => exact ⟨_, (drain_headed header _).trans (drain_of_isTags htags false)⟩

/-- Of a stream with a faulty header nothing is taken. -/
theorem drain_of_headerFault {stream : ByteArray} {fault : StreamFault}
    (h : HeaderFault stream fault) :
    (LinkCodec.fresh .flv).drain stream = ⟨[], some (.invalid fault), .fresh .flv, stream⟩ := by
  rw [LinkCodec.fresh, LinkCodec.drain_eq]
  simp only [LinkCodec.decode, FlvCodec.decode_start, opening_headerFault h]
  rfl

/-- Every stream follows the grammar, unless its header is faulty. -/
theorem parses_or_headerFault (stream : ByteArray) :
    (∃ tags tail, Parses stream tags tail) ∨ ∃ fault, HeaderFault stream fault := by
  rcases opening_cases stream with hheaderless | hbreaks | hfault | ⟨header, rest, rfl⟩
  · obtain ⟨tags, tail, htags⟩ := exists_isTags stream
    exact .inl ⟨tags, tail, .headerless hheaderless htags⟩
  · exact .inl ⟨[], stream, .unopened hbreaks⟩
  · exact .inr hfault
  · obtain ⟨tags, tail, htags⟩ := exists_isTags rest
    exact .inl ⟨tags, tail, .headed header htags⟩

/-- A stream that a reader accepts follows the grammar. -/
theorem parses_of_drain {stream : ByteArray}
    (h : ((LinkCodec.fresh .flv).drain stream).error? = none) :
    ∃ tags tail, Parses stream tags tail := by
  obtain hparses | ⟨fault, hfault⟩ := parses_or_headerFault stream
  · exact hparses
  · rw [drain_of_headerFault hfault] at h
    cases h

end LiveRelay.Flv
