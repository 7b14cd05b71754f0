import LiveRelay.Proofs.Codec.Drain

/-! # Frames that can be written again

A tag has three bytes for the size of its payload. What has been read from a stream fits
into them, so no sink has to refuse a frame that a source has taken from its peer.
-/

namespace LiveRelay

open Flv

/-- The frame is a tag already, or a tag can hold its payload. -/
def Frame.IsEncodable (frame : Frame) : Prop :=
  frame.tag = .raw ∨ frame.payload.size ≤ maxPayloadSize

instance (frame : Frame) : Decidable frame.IsEncodable := inferInstanceAs (Decidable (_ ∨ _))

/-- A codec of this kind can write the frame. -/
def CodecKind.CanWrite (kind : CodecKind) (frame : Frame) : Prop :=
  kind = .raw ∨ frame.IsEncodable

instance (kind : CodecKind) (frame : Frame) : Decidable (kind.CanWrite frame) :=
  inferInstanceAs (Decidable (_ ∨ _))

/-- A codec can write every frame but a tag whose payload is too large. -/
theorem CodecKind.not_canWrite_iff {kind : CodecKind} {frame : Frame} :
    ¬ kind.CanWrite frame ↔
      kind = .flv ∧ frame.tag ≠ .raw ∧ maxPayloadSize < frame.payload.size := by
  rw [CanWrite, Frame.IsEncodable, not_or, not_or, Nat.not_le]
  cases kind <;> simp

def LinkCodec.kind : LinkCodec → CodecKind
  | raw => .raw
  | flv _ => .flv

theorem LinkCodec.encode_isEncodable (codec : LinkCodec) {frame : Frame} (h : frame.IsEncodable)
    (output : ByteArray) : (codec.encode frame output).result = .ok () := by
  cases codec with
  | raw => rfl
  | flv codec =>
      simp only [encode, FlvCodec.encode]
      split
      next => rfl
      next type htype =>
        rcases h with hraw | hsize
        · rw [hraw] at htype
          cases htype
        · rw [if_neg (Nat.not_lt_of_le hsize)]

theorem Flv.TagHeader.payloadSize_le {bytes : List UInt8} {header : TagHeader}
    (h : TagHeader.ofBytes? bytes = some header) : header.payloadSize ≤ maxPayloadSize := by
  unfold TagHeader.ofBytes? at h
  split at h
  next type s₂ s₁ s₀ _ _ _ _ _ _ _ =>
    cases h
    have hlt := BigEndian.decode_lt [s₂, s₁, s₀]
    simp only [List.length_cons, List.length_nil] at hlt
    exact Nat.le_of_lt_succ hlt
  next => cases h

theorem Flv.TagHeader.frame_isEncodable {header : TagHeader}
    (h : header.payloadSize ≤ maxPayloadSize) (tag : ByteArray) :
    (header.frame tag).IsEncodable := by
  have hpayload :
      (tag.extract tagHeaderSize (tagHeaderSize + header.payloadSize)).size ≤ maxPayloadSize := by
    rw [ByteArray.size_extract]
    omega
  unfold TagHeader.frame
  cases header.kind with
  | other => exact .inl rfl
  | _ => exact .inr hpayload

namespace FlvCodec

variable {codec : FlvCodec} {buffer : ByteArray} {frame : Frame}

theorem nextTag_isEncodable (h : (codec.nextTag buffer).result = .ok (some frame)) :
    frame.IsEncodable := by
  rcases codec.nextTag_cases buffer with hnone | ⟨header, hheader, -, htag⟩
  · rw [hnone] at h
    cases h
  · rw [htag] at h
    cases h
    exact TagHeader.frame_isEncodable (TagHeader.payloadSize_le hheader) _

theorem decode_isEncodable (h : (codec.decode buffer).result = .ok (some frame)) :
    frame.IsEncodable := by
  cases hstage : codec.stage with
  | tags =>
      rw [decode_tags hstage] at h
      exact nextTag_isEncodable h
  | start =>
      rw [decode_start hstage] at h
      split at h
      next => cases h
      next => cases h
      next => exact nextTag_isEncodable h
      next => exact nextTag_isEncodable h

end FlvCodec

namespace LinkCodec

@[simp] theorem kind_fresh (kind : CodecKind) : (fresh kind).kind = kind := by
  cases kind <;> rfl

@[simp] theorem kind_encode (codec : LinkCodec) (frame : Frame) (output : ByteArray) :
    (codec.encode frame output).codec.kind = codec.kind := by
  cases codec <;> rfl

theorem encode_of_canWrite {codec : LinkCodec} {frame : Frame} (h : codec.kind.CanWrite frame)
    (output : ByteArray) : (codec.encode frame output).result = .ok () := by
  cases codec with
  | raw => rfl
  | flv codec => exact encode_isEncodable _ (h.resolve_left nofun) output

/-- A frame that is refused changes neither the codec nor what it has written. -/
theorem encode_of_not_canWrite {codec : LinkCodec} {frame : Frame}
    (h : ¬ codec.kind.CanWrite frame) (output : ByteArray) :
    codec.encode frame output = ⟨.error (.frameTooLarge frame.payload.size), codec, output⟩ := by
  obtain ⟨hkind, htag, hsize⟩ := CodecKind.not_canWrite_iff.mp h
  cases codec with
  | raw => cases hkind
  | flv codec =>
      simp only [encode, FlvCodec.encode]
      cases htype : FlvCodec.tagType? frame.tag with
      | none =>
          refine absurd ?_ htag
          cases hraw : frame.tag <;> rw [hraw] at htype <;> first | rfl | cases htype
      | some type => simp only [if_pos hsize]

/-- What a codec can write it writes, and what it refuses leaves it as it is. -/
theorem encode_cases (codec : LinkCodec) (frame : Frame) (output : ByteArray) :
    (codec.kind.CanWrite frame ∧ ∃ later bytes,
        codec.encode frame output = ⟨.ok (), later, bytes⟩) ∨
      (¬ codec.kind.CanWrite frame ∧ ∃ error,
        codec.encode frame output = ⟨.error error, codec, output⟩) := by
  by_cases h : codec.kind.CanWrite frame
  · refine .inl ⟨h, (codec.encode frame output).codec, (codec.encode frame output).output, ?_⟩
    rw [← encode_of_canWrite h output]
  · exact .inr ⟨h, _, encode_of_not_canWrite h output⟩

theorem decode_isEncodable {codec : LinkCodec} {buffer : ByteArray} {frame : Frame}
    (h : (codec.decode buffer).result = .ok (some frame)) : frame.IsEncodable := by
  cases codec with
  | flv codec => exact FlvCodec.decode_isEncodable h
  | raw =>
      simp only [decode, Raw.decode] at h
      split_ifs at h
      · cases h
      · cases h
        exact .inl rfl

/-- Whatever a source takes from its peer can be written to any other. -/
theorem drain_isEncodable (codec : LinkCodec) (buffer : ByteArray) :
    ∀ frame ∈ (codec.drain buffer).frames, frame.IsEncodable := by
  induction codec, buffer using drain.induct with
  | case1 codec buffer decoding error herror =>
      rw [drain_of_error herror]
      nofun
  | case2 codec buffer decoding hnone =>
      rw [drain_of_none hnone]
      nofun
  | case3 codec buffer decoding first hfirst ih =>
      rw [drain_of_frame hfirst]
      intro frame hframe
      rcases List.mem_cons.mp hframe with rfl | hrest
      · exact decode_isEncodable hfirst
      · exact ih frame hrest

end LinkCodec

end LiveRelay
