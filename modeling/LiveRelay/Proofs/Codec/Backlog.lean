import LiveRelay.Proofs.Codec.Faults

/-! # What a codec leaves lying

Every frame takes bytes off the front of the buffer, so decoding comes to an end. What is left
then is less than the largest tag, or less than the longest header while that is not
complete: a codec waits for nothing but the rest of what it has begun to read.
-/

namespace LiveRelay

open Flv

namespace Flv

theorem BreaksOff.size_le {stream : ByteArray} (h : BreaksOff stream) : stream.size ≤ 1036 := by
  cases h with
  | early h hshort =>
      unfold fileHeaderSize at hshort
      omega
  | late flags h hshort =>
      have hfixed : ∀ padding, (fixedHeader flags padding).toByteArray.size = 9 :=
        fun padding => List.size_toByteArray
      rw [ByteArray.size_append, hfixed]
      unfold fileHeaderSize maxDataOffset fileHeaderSize at h
      unfold backPointerSize at hshort
      omega

/-- With eleven bytes there is the header of a tag. -/
theorem exists_tagHeader {buffer : ByteArray} (h : tagHeaderSize ≤ buffer.size) :
    ∃ header, TagHeader.ofBytes? (buffer.extract 0 tagHeaderSize).data.toList = some header := by
  have hlength := length_toList_extract buffer tagHeaderSize
  rw [Nat.min_eq_left h] at hlength
  generalize (buffer.extract 0 tagHeaderSize).data.toList = bytes at hlength ⊢
  match bytes, hlength with
  | [_, _, _, _, _, _, _, _, _, _, _], _ => exact ⟨_, rfl⟩

/-- What a codec is given begins with what it has dealt with before, perhaps a header. -/
theorem TagsBegin.exists_front {stage : Stage} {buffer tags : ByteArray}
    (h : TagsBegin stage buffer tags) : ∃ front, buffer = front ++ tags := by
  cases h with
  | going => exact ⟨.empty, ByteArray.empty_append.symm⟩
  | headerless => exact ⟨.empty, ByteArray.empty_append.symm⟩
  | headed header => exact ⟨header.bytes, rfl⟩

end Flv

namespace FlvCodec

variable {codec : FlvCodec} {buffer : ByteArray} {frame : Frame}

/-- A codec takes its frame from a tag that lies in front, and waits for the rest of the largest
tag at most. -/
theorem nextTag_bounded (codec : FlvCodec) (buffer : ByteArray) :
    (∃ (tag : Tag) (rest : ByteArray), buffer = tag.bytes ++ rest ∧
      codec.nextTag buffer = ⟨.ok (some tag.frame), codec, rest⟩) ∨
    ((∀ (tag : Tag) (rest : ByteArray), buffer ≠ tag.bytes ++ rest) ∧
      codec.nextTag buffer = ⟨.ok none, codec, buffer⟩ ∧ buffer.size ≤ 16777229) := by
  by_cases h : ∃ (tag : Tag) (rest : ByteArray), buffer = tag.bytes ++ rest
  · obtain ⟨tag, rest, rfl⟩ := h
    exact .inl ⟨tag, rest, rfl, nextTag_bytes codec tag rest⟩
  · simp only [not_exists] at h
    refine .inr ⟨h, nextTag_of_no_tag h codec, ?_⟩
    by_contra hlong
    obtain ⟨header, hheader⟩ := exists_tagHeader (show tagHeaderSize ≤ buffer.size by
      unfold tagHeaderSize
      omega)
    have hpayload := TagHeader.payloadSize_le hheader
    have hsize : header.tagSize ≤ buffer.size := by
      unfold TagHeader.tagSize tagHeaderSize backPointerSize
      unfold maxPayloadSize at hpayload
      omega
    obtain ⟨tag, htag⟩ := exists_tag hheader hsize
    refine h tag (buffer.extract header.tagSize buffer.size) ?_
    rw [← htag, ← ByteArray.extract_eq_extract_append_extract _ (Nat.zero_le _) hsize,
      ByteArray.extract_zero_size]

end FlvCodec

/-- The fewest bytes that a frame is made of. -/
def CodecKind.leastFrame : CodecKind → Nat
  | raw => 1
  | flv => 15

namespace LinkCodec

/-- The most bytes that a codec leaves when it waits for more. -/
def longestWait : LinkCodec → Nat
  | raw => 0
  | flv ⟨.start, _⟩ => 1036
  | flv ⟨.tags, _⟩ => 16777229

/-- The bytes begin with all of a frame. -/
def FrameBegins : LinkCodec → ByteArray → Prop
  | raw, buffer => buffer ≠ .empty
  | flv codec, buffer => ∃ (tag : Tag) (rest : ByteArray),
      TagsBegin codec.stage buffer (tag.bytes ++ rest)

/-- What an attempt to decode can come to. -/
inductive Attempt (codec : LinkCodec) (buffer : ByteArray) : Decoding LinkCodec → Prop
  | takes {front rest : ByteArray} {frame : Frame} {later : LinkCodec}
      (hbegins : codec.FrameBegins buffer) (hbuffer : buffer = front ++ rest)
      (hsize : codec.kind.leastFrame ≤ front.size) (hkind : later.kind = codec.kind) :
      Attempt codec buffer ⟨.ok (some frame), later, rest⟩
  | waits {front rest : ByteArray} {later : LinkCodec}
      (hbegins : ¬ codec.FrameBegins buffer) (hbuffer : buffer = front ++ rest)
      (hsize : rest.size ≤ later.longestWait) : Attempt codec buffer ⟨.ok none, later, rest⟩
  | fails {error : CodecError} (hbegins : ¬ codec.FrameBegins buffer) :
      Attempt codec buffer ⟨.error error, codec, buffer⟩

theorem attempt_raw (buffer : ByteArray) : Attempt raw buffer (raw.decode buffer) := by
  by_cases hempty : buffer.isEmpty = true
  · have hnothing : buffer = .empty := by simpa [ByteArray.isEmpty] using hempty
    have hdecode : raw.decode buffer = ⟨.ok none, raw, buffer⟩ := by
      simp only [decode, Raw.decode, if_pos hempty]
    rw [hdecode, hnothing]
    exact .waits (fun hsome => hsome rfl) ByteArray.empty_append.symm (Nat.le_refl 0)
  · have hsome : buffer ≠ .empty := by
      rintro rfl
      exact hempty rfl
    have hdecode : raw.decode buffer = ⟨.ok (some (.raw buffer)), raw, .empty⟩ := by
      simp only [decode, Raw.decode, if_neg hempty]
    rw [hdecode]
    refine .takes hsome ByteArray.append_empty.symm ?_ rfl
    exact Nat.pos_of_ne_zero fun hzero => hsome (ByteArray.size_eq_zero_iff.mp hzero)

theorem decode_flv {codec : FlvCodec} {buffer : ByteArray} {decoding : Decoding FlvCodec}
    (h : codec.decode buffer = decoding) :
    (flv codec).decode buffer = ⟨decoding.result, flv decoding.codec, decoding.buffer⟩ := by
  rw [← h]
  rfl

/-- As long as it is not clear where the tags begin, no tag does. -/
theorem not_frameBegins {codec : FlvCodec} {buffer : ByteArray} (hstage : codec.stage = .start)
    (h : (codec.decode buffer).codec = codec) : ¬ (flv codec).FrameBegins buffer := by
  rintro ⟨tag, rest, hbegins⟩
  have htags := FlvCodec.stage_decode_iff.mpr ⟨_, hbegins⟩
  rw [h, hstage] at htags
  cases htags

theorem attempt_flv (codec : FlvCodec) (buffer : ByteArray) :
    Attempt (flv codec) buffer ((flv codec).decode buffer) := by
  rcases codec.decode_cases buffer with ⟨hstage, hbreaks⟩ | ⟨hstage, fault, hfault⟩ | ⟨tags, h⟩
  · have hdecode := FlvCodec.decode_of_breaksOff hstage hbreaks
    have hwait : (flv codec).longestWait = 1036 := by
      obtain ⟨stage, headerWritten⟩ := codec
      obtain rfl : stage = .start := hstage
      rfl
    rw [decode_flv hdecode]
    refine .waits (not_frameBegins hstage (by rw [hdecode])) ByteArray.empty_append.symm ?_
    rw [hwait]
    exact hbreaks.size_le
  · have hdecode := FlvCodec.decode_of_headerFault hstage hfault
    rw [decode_flv hdecode]
    exact .fails (not_frameBegins hstage (by rw [hdecode]))
  · have hdecode := FlvCodec.decode_of_tagsBegin h
    obtain ⟨front, hfront⟩ := h.exists_front
    rcases FlvCodec.nextTag_bounded { codec with stage := .tags } tags with
      ⟨tag, rest, htags, htaken⟩ | ⟨hnone, hwaits, hsize⟩
    · rw [decode_flv (hdecode.trans htaken)]
      have hbuffer : buffer = front ++ tag.bytes ++ rest := by
        rw [hfront, htags, ByteArray.append_assoc]
      refine .takes ⟨tag, rest, htags ▸ h⟩ hbuffer ?_ rfl
      have hleast : (flv codec).kind.leastFrame = tagHeaderSize + backPointerSize := rfl
      rw [ByteArray.size_append, tag.size_bytes, TagHeader.tagSize, hleast]
      omega
    · rw [decode_flv (hdecode.trans hwaits)]
      refine .waits ?_ hfront hsize
      rintro ⟨tag, rest, hbegins⟩
      have htaken := FlvCodec.decode_of_tagsBegin hbegins
      rw [nextTag_bytes, hdecode, hwaits] at htaken
      cases htaken

theorem attempt_decode (codec : LinkCodec) (buffer : ByteArray) :
    Attempt codec buffer (codec.decode buffer) := by
  cases codec with
  | raw => exact attempt_raw buffer
  | flv codec => exact attempt_flv codec buffer

variable {codec : LinkCodec} {buffer : ByteArray}

/-! ## One attempt after the other -/

/-- A codec takes these frames from a buffer, in as many attempts. -/
inductive Takes : LinkCodec → ByteArray → List Frame → LinkCodec → ByteArray → Prop
  | nothing (codec : LinkCodec) (buffer : ByteArray) : Takes codec buffer [] codec buffer
  | frame {codec next later : LinkCodec} {buffer rest left : ByteArray} {frame : Frame}
      {frames : List Frame} (h : codec.decode buffer = ⟨.ok (some frame), next, rest⟩)
      (hrest : Takes next rest frames later left) :
      Takes codec buffer (frame :: frames) later left

theorem size_of_frame {next : LinkCodec} {rest : ByteArray} {frame : Frame}
    (h : codec.decode buffer = ⟨.ok (some frame), next, rest⟩) :
    rest.size + codec.kind.leastFrame ≤ buffer.size ∧ next.kind = codec.kind := by
  have hattempt := codec.attempt_decode buffer
  rw [h] at hattempt
  cases hattempt with
  | takes hbegins hbuffer hsize hkind =>
      rw [hbuffer, ByteArray.size_append, Nat.add_comm]
      exact ⟨Nat.add_le_add_right hsize _, hkind⟩

/-- Every frame has taken its share of the buffer. -/
theorem Takes.size_le {frames : List Frame} {later : LinkCodec} {left : ByteArray}
    (h : Takes codec buffer frames later left) :
    codec.kind.leastFrame * frames.length + left.size ≤ buffer.size := by
  induction h with
  | nothing => simp
  | frame h hrest ih =>
      obtain ⟨hsize, hkind⟩ := size_of_frame h
      rw [hkind] at ih
      rw [List.length_cons, Nat.mul_succ]
      omega

/-- The attempts come to an end, and draining is making them until then. -/
theorem exists_takes (codec : LinkCodec) (buffer : ByteArray) :
    ∃ frames later left, Takes codec buffer frames later left ∧
      (∀ frame, (later.decode left).result ≠ .ok (some frame)) ∧
      codec.drain buffer = { later.drain left with frames } := by
  induction hsize : buffer.size using Nat.strongRecOn generalizing codec buffer with
  | ind size ih =>
      rcases hdecode : codec.decode buffer with ⟨result, next, rest⟩
      match result with
      | .error error =>
          have herror : (codec.decode buffer).result = .error error := by rw [hdecode]
          refine ⟨[], codec, buffer, .nothing _ _, by simp [herror], ?_⟩
          rw [drain_of_error herror]
      | .ok none =>
          have hnone : (codec.decode buffer).result = .ok none := by rw [hdecode]
          refine ⟨[], codec, buffer, .nothing _ _, by simp [hnone], ?_⟩
          rw [drain_of_none hnone]
      | .ok (some frame) =>
          have hframe : (codec.decode buffer).result = .ok (some frame) := by rw [hdecode]
          have hlt := decode_size_lt hframe
          rw [hdecode, hsize] at hlt
          obtain ⟨frames, later, left, htakes, hends, hdrain⟩ := ih rest.size hlt next rest rfl
          refine ⟨frame :: frames, later, left, .frame hdecode htakes, hends, ?_⟩
          rw [drain_of_frame hframe, hdecode, hdrain]
          rfl

/-- A codec that waits has not got all of what comes next. -/
theorem size_of_waiting (h : (codec.decode buffer).result = .ok none) :
    (codec.decode buffer).buffer.size ≤ (codec.decode buffer).codec.longestWait := by
  have hattempt := codec.attempt_decode buffer
  generalize codec.decode buffer = decoding at h hattempt
  cases hattempt with
  | takes => cases h
  | waits hbegins hbuffer hsize => exact hsize
  | fails => cases h

/-- What is left of a drained buffer is less than what comes next. -/
theorem size_of_drained (h : (codec.drain buffer).error? = none) :
    (codec.drain buffer).buffer.size ≤ (codec.drain buffer).codec.longestWait := by
  obtain ⟨frames, later, left, -, hends, hdrain⟩ := codec.exists_takes buffer
  rw [hdrain] at h ⊢
  rcases hresult : (later.decode left).result with error | (_ | frame)
  · rw [drain_of_error hresult] at h
    cases h
  · rw [drain_of_none hresult]
    exact size_of_waiting hresult
  · exact absurd hresult (hends frame)

/-- What decoding takes from a buffer, and what it leaves. -/
structure KeepsLittle (codec : LinkCodec) (buffer : ByteArray) : Prop where
  /-- Bytes are only taken off the front. -/
  shrinks : ∃ front, buffer = front ++ (codec.decode buffer).buffer
  /-- Each frame takes its share of them. -/
  takes : ∀ frame, (codec.decode buffer).result = .ok (some frame) →
    (codec.decode buffer).buffer.size + codec.kind.leastFrame ≤ buffer.size
  /-- A frame that is all there is taken. -/
  takes_iff : (∃ frame, (codec.decode buffer).result = .ok (some frame)) ↔
    codec.FrameBegins buffer
  /-- One that is not is waited for, but not for more than the rest of it. -/
  waits : (codec.decode buffer).result = .ok none →
    (codec.decode buffer).buffer.size ≤ (codec.decode buffer).codec.longestWait
  /-- So a buffer is used up in so many attempts, -/
  short : ∀ frames later left, Takes codec buffer frames later left →
    codec.kind.leastFrame * frames.length + left.size ≤ buffer.size
  /-- and draining it makes them all. -/
  ends : ∃ frames later left, Takes codec buffer frames later left ∧
    (∀ frame, (later.decode left).result ≠ .ok (some frame)) ∧
    codec.drain buffer = { later.drain left with frames }

theorem keepsLittle (codec : LinkCodec) (buffer : ByteArray) : codec.KeepsLittle buffer := by
  have hattempt := codec.attempt_decode buffer
  constructor
  case shrinks =>
    generalize codec.decode buffer = decoding at hattempt
    cases hattempt with
    | takes hbegins hbuffer hsize hkind => exact ⟨_, hbuffer⟩
    | waits hbegins hbuffer hsize => exact ⟨_, hbuffer⟩
    | fails => exact ⟨.empty, ByteArray.empty_append.symm⟩
  case takes =>
    intro frame hframe
    rcases hdecode : codec.decode buffer with ⟨result, next, rest⟩
    rw [hdecode] at hframe
    rw [show result = .ok (some frame) from hframe] at hdecode
    exact (size_of_frame hdecode).1
  case takes_iff =>
    generalize codec.decode buffer = decoding at hattempt
    cases hattempt with
    | takes hbegins => exact iff_of_true ⟨_, rfl⟩ hbegins
    | waits hbegins => exact iff_of_false (by rintro ⟨frame, hframe⟩; cases hframe) hbegins
    | fails hbegins => exact iff_of_false (by rintro ⟨frame, hframe⟩; cases hframe) hbegins
  case waits => exact size_of_waiting
  case short => exact fun _ _ _ htakes => htakes.size_le
  case ends => exact codec.exists_takes buffer

end LinkCodec

end LiveRelay
