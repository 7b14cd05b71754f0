import LiveRelay.Proofs.Codec.Grammar

/-! # Reading back what was written

Frames that a stream of tags can carry are written without an error, and a reader gets
exactly these frames back, in whatever pieces the stream reaches it.
-/

namespace LiveRelay

open Flv

theorem Flv.WellFormed.isEncodable {frame : Frame} (h : WellFormed frame) :
    frame.IsEncodable := by
  obtain ⟨tag, timestamp, payload⟩ := frame
  cases tag with
  | raw => exact .inl rfl
  | audio => exact .inr h
  | video => exact .inr h
  | data key => exact .inr h.1

namespace LinkCodec

/-- Writes one more frame, if no error has come up. -/
def Encoding.next (encoding : Encoding LinkCodec) (frame : Frame) : Encoding LinkCodec :=
  match encoding.result with
  | .error _ => encoding
  | .ok () => encoding.codec.encode frame encoding.output

/-- Writes frames one behind the other. -/
def encodeAll (codec : LinkCodec) (frames : List Frame) : Encoding LinkCodec :=
  frames.foldl Encoding.next ⟨.ok (), codec, .empty⟩

theorem encodeAll_append_singleton {codec : LinkCodec} {frames : List Frame}
    (h : (encodeAll codec frames).result = .ok ()) (frame : Frame) :
    encodeAll codec (frames ++ [frame]) =
      (encodeAll codec frames).codec.encode frame (encodeAll codec frames).output := by
  rw [encodeAll, List.foldl_append]
  exact (Encoding.next.eq_def _ frame).trans (by rw [← encodeAll, h])

theorem kind_encodeAll (codec : LinkCodec) (frames : List Frame) :
    (encodeAll codec frames).codec.kind = codec.kind := by
  have hnext : ∀ (encoding : Encoding LinkCodec) (frame : Frame),
      (Encoding.next encoding frame).codec.kind = encoding.codec.kind := by
    intro encoding frame
    unfold Encoding.next
    split
    next => rfl
    next => exact kind_encode _ _ _
  have hfrom : ∀ encoding : Encoding LinkCodec,
      (frames.foldl Encoding.next encoding).codec.kind = encoding.codec.kind := by
    induction frames with
    | nil => exact fun _ => rfl
    | cons frame frames ih => exact fun encoding => (ih _).trans (hnext encoding frame)
  exact hfrom _

/-- What is written for a frame does not depend on what was written before it. -/
theorem encode_eq (codec : LinkCodec) (frame : Frame) (output : ByteArray) :
    codec.encode frame output =
      ⟨(codec.encode frame .empty).result, (codec.encode frame .empty).codec,
        output ++ (codec.encode frame .empty).output⟩ := by
  cases codec with
  | raw => simp [encode, Raw.encode]
  | flv codec =>
      simp only [encode, FlvCodec.encode]
      split
      next => split_ifs <;> simp [ByteArray.append_assoc]
      next => split_ifs <;> simp [ByteArray.append_assoc]

theorem encodeAll_append_of_encode {codec middle later : LinkCodec} {frames : List Frame}
    {frame : Frame} {done bytes : ByteArray}
    (hdone : encodeAll codec frames = ⟨.ok (), middle, done⟩)
    (hencode : middle.encode frame .empty = ⟨.ok (), later, bytes⟩) :
    encodeAll codec (frames ++ [frame]) = ⟨.ok (), later, done ++ bytes⟩ := by
  rw [encodeAll_append_singleton (by rw [hdone]), hdone, encode_eq, hencode]

/-- A frame is written as a tag, behind the file header if that has not been written yet. -/
theorem encode_flv (codec : FlvCodec) {frame : Frame} (h : frame.IsEncodable)
    (output : ByteArray) :
    (flv codec).encode frame output =
      ⟨.ok (), flv { codec with headerWritten := true },
        (if codec.headerWritten then output else output ++ fileHeader.toByteArray)
          ++ tagOf frame⟩ := by
  obtain ⟨tag, timestamp, payload⟩ := frame
  have hsize : ∀ type, FlvCodec.tagType? tag = some type → ¬ maxPayloadSize < payload.size := by
    intro type htype
    rcases h with rfl | hsize
    · cases htype
    · exact Nat.not_lt_of_le hsize
  simp only [encode, FlvCodec.encode, tagOf]
  cases htype : FlvCodec.tagType? tag with
  | none => rfl
  | some type => simp only [if_neg (hsize type htype)]

/-- Behind the file header a stream is its tags, one behind the other. -/
theorem foldl_next_flv {frames : List Frame} (h : ∀ frame ∈ frames, frame.IsEncodable)
    (stage : Stage) (output : ByteArray) :
    frames.foldl Encoding.next ⟨.ok (), flv ⟨stage, true⟩, output⟩ =
      ⟨.ok (), flv ⟨stage, true⟩, output ++ joined (frames.map tagOf)⟩ := by
  induction frames generalizing output with
  | nil => rw [List.foldl_nil, List.map_nil, joined, ByteArray.append_empty]
  | cons frame frames ih =>
      obtain ⟨hframe, hframes⟩ := List.forall_mem_cons.mp h
      rw [List.foldl_cons, Encoding.next, encode_flv _ hframe, if_pos rfl, ih hframes,
        List.map_cons, joined, ByteArray.append_assoc]

theorem encodeAll_flv {frames : List Frame} (h : ∀ frame ∈ frames, frame.IsEncodable) :
    (encodeAll (fresh .flv) frames).result = .ok () ∧
      (encodeAll (fresh .flv) frames).output =
        if frames = [] then .empty
        else fileHeader.toByteArray ++ joined (frames.map tagOf) := by
  cases frames with
  | nil => exact ⟨rfl, rfl⟩
  | cons frame frames =>
      obtain ⟨hframe, hframes⟩ := List.forall_mem_cons.mp h
      rw [encodeAll, List.foldl_cons, Encoding.next, fresh, encode_flv _ hframe,
        foldl_next_flv hframes, if_neg (List.cons_ne_nil _ _)]
      refine ⟨rfl, ?_⟩
      simp only [if_neg Bool.false_ne_true, ByteArray.empty_append, List.map_cons, joined,
        ByteArray.append_assoc]

theorem encodeAll_wellFormed {frames : List Frame} (h : ∀ frame ∈ frames, WellFormed frame) :
    (encodeAll (fresh .flv) frames).result = .ok () ∧
      (encodeAll (fresh .flv) frames).output =
        if frames = [] then .empty
        else fileHeader.toByteArray ++ joined (frames.map tagOf) :=
  encodeAll_flv fun frame hframe => (h frame hframe).isEncodable

/-- A reader that is past the file header takes tag after tag. -/
theorem drain_tags {frames : List Frame} (h : ∀ frame ∈ frames, WellFormed frame)
    (headerWritten : Bool) :
    (flv ⟨.tags, headerWritten⟩).drain (joined (frames.map tagOf)) =
      ⟨frames, none, flv ⟨.tags, headerWritten⟩, .empty⟩ := by
  induction frames with
  | nil => exact drain_empty _
  | cons frame frames ih =>
      obtain ⟨hframe, hframes⟩ := List.forall_mem_cons.mp h
      obtain ⟨header, hheads, htaken⟩ := hframe.heads
      have hdecode : (flv ⟨.tags, headerWritten⟩).decode (tagOf frame ++ joined (frames.map tagOf))
          = ⟨.ok (some frame), flv ⟨.tags, headerWritten⟩, joined (frames.map tagOf)⟩ := by
        simp only [decode, FlvCodec.decode_tags, nextTag_of_heads hheads, htaken]
      rw [List.map_cons, joined, drain_eq, hdecode, Drained.ofDecoding, ih hframes]
      rfl

/-- The header that every written stream opens with. -/
def writtenHeader : FileHeader where
  flags := 0x05
  padding := .empty
  backPointer := 0
  padding_le := by decide

theorem bytes_writtenHeader : writtenHeader.bytes = fileHeader.toByteArray := by decide +kernel

theorem drain_encodeAll {frames : List Frame} (h : ∀ frame ∈ frames, WellFormed frame) :
    ∃ codec, (fresh .flv).drain (encodeAll (fresh .flv) frames).output =
      ⟨frames, none, codec, .empty⟩ := by
  rw [(encodeAll_wellFormed h).2]
  split
  next hnil =>
    subst hnil
    exact ⟨_, drain_empty {}⟩
  next =>
    rw [← bytes_writtenHeader]
    exact ⟨_, (drain_headed writtenHeader _).trans (drain_tags h false)⟩

/-- What was written is read back, however the stream is cut into pieces on its way, and
nothing of it is left over. -/
theorem feed_encodeAll (frames : List Frame) (h : ∀ frame ∈ frames, WellFormed frame) :
    (encodeAll (fresh .flv) frames).result = .ok () ∧
      ∀ chunks, joined chunks = (encodeAll (fresh .flv) frames).output →
        (feed (fresh .flv) chunks).frames = frames ∧
          (feed (fresh .flv) chunks).error? = none ∧
          (feed (fresh .flv) chunks).buffer = .empty := by
  refine ⟨(encodeAll_wellFormed h).1, ?_⟩
  intro chunks hchunks
  obtain ⟨codec, hdrain⟩ := drain_encodeAll h
  rw [← hchunks] at hdrain
  have hfeed : feed (fresh .flv) chunks = (fresh .flv).drain (joined chunks) :=
    feed_eq_drain (congrArg Drained.error? hdrain)
  rw [hfeed, hdrain]
  exact ⟨rfl, rfl, rfl⟩

/-- A tag of type 15 with one byte of payload, a script tag with a name, and a frame whose
timestamp fills all its bytes. -/
def mixedFrames : List Frame :=
  [.raw [0x2F, 0, 0, 1, 0, 0, 0, 0, 0, 0, 0, 0x46, 0, 0, 0, 12].toByteArray,
    .data 0x01020304 (some "a") [2, 0, 1, 0x61, 8].toByteArray,
    .audio 0xFFFFFFFF [].toByteArray]

theorem wellFormed_mixedFrames : ∀ frame ∈ mixedFrames, WellFormed frame := by
  have hkey : scriptKey? [2, 0, 1, 0x61, 8].toByteArray = some "a" := by decide +kernel
  intro frame hframe
  simp only [mixedFrames, List.mem_cons, List.not_mem_nil, or_false] at hframe
  rcases hframe with rfl | rfl | rfl
  · exact ⟨rfl, 0x2F, _, rfl, by decide, by decide⟩
  · refine ⟨by decide, fun name => ?_⟩
    exact (Eq.congr_left hkey).symm.trans scriptKey?_eq_some_iff
  · exact Nat.zero_le _

/-- The mixed frames come back from a stream that is cut inside the file header and inside
each tag. -/
theorem feed_encodeAll_mixedFrames :
    let output := (encodeAll (fresh .flv) mixedFrames).output
    let chunks := [output.extract 0 5, output.extract 5 20, .empty, output.extract 20 40,
      output.extract 40 output.size]
    (∀ frame ∈ mixedFrames, WellFormed frame) ∧ joined chunks = output ∧
      (encodeAll (fresh .flv) mixedFrames).result = .ok () ∧
      (feed (fresh .flv) chunks).frames = mixedFrames ∧
      (feed (fresh .flv) chunks).error? = none ∧ (feed (fresh .flv) chunks).buffer = .empty := by
  intro output chunks
  have hjoined : joined chunks = output := by decide +kernel
  obtain ⟨hresult, hfeed⟩ := feed_encodeAll mixedFrames wellFormed_mixedFrames
  exact ⟨wellFormed_mixedFrames, hjoined, hresult, hfeed chunks hjoined⟩

end LinkCodec

end LiveRelay
