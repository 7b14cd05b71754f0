import LiveRelay.Proofs.Codec.RoundTrip

/-! # Frames that a codec refuses

A tag has no room for a payload over a certain size. A codec that is offered such a frame refuses
it and goes on as if it had never seen it, wherever among the others the frame stands; above all,
the file header is written with the first frame that is not refused, and never for nothing.
-/

namespace LiveRelay

open Flv

/-- A codec with what it has written. -/
structure Writer where
  codec : LinkCodec
  output : ByteArray

namespace Writer

/-- Offers a frame to the codec, which goes on whatever comes of it. -/
def offer (writer : Writer) (frame : Frame) : Writer :=
  let encoding := writer.codec.encode frame writer.output
  ⟨encoding.codec, encoding.output⟩

/-- Offers frames, one after the other. -/
def offerAll (writer : Writer) (frames : List Frame) : Writer := frames.foldl offer writer

/-- What the offers come to. -/
def results (writer : Writer) : List Frame → List (Except CodecError Unit)
  | [] => []
  | frame :: frames =>
      (writer.codec.encode frame writer.output).result :: (writer.offer frame).results frames

variable (writer : Writer) (frame : Frame) (frames : List Frame)

theorem offerAll_cons : writer.offerAll (frame :: frames) = (writer.offer frame).offerAll frames :=
  List.foldl_cons ..

@[simp] theorem kind_offer : (writer.offer frame).codec.kind = writer.codec.kind :=
  LinkCodec.kind_encode _ _ _

variable {writer frame frames}

theorem offer_of_not_canWrite (h : ¬ writer.codec.kind.CanWrite frame) :
    writer.offer frame = writer := by
  rw [offer, LinkCodec.encode_of_not_canWrite h]

/-- Frames that are refused could as well not have been offered. -/
theorem offerAll_filter (writer : Writer) (frames : List Frame) :
    writer.offerAll (frames.filter (writer.codec.kind.CanWrite ·)) = writer.offerAll frames := by
  induction frames generalizing writer with
  | nil => rfl
  | cons frame frames ih =>
      have hrest := ih (writer.offer frame)
      rw [kind_offer] at hrest
      rw [List.filter_cons]
      by_cases hcan : writer.codec.kind.CanWrite frame
      · rw [if_pos (decide_eq_true hcan), offerAll_cons, offerAll_cons, hrest]
      · rw [offer_of_not_canWrite hcan] at hrest
        rw [if_neg (by simpa using hcan), hrest, offerAll_cons, offer_of_not_canWrite hcan]

/-- What is offered before does not decide whether a frame is refused. -/
theorem results_eq (writer : Writer) (frames : List Frame) :
    writer.results frames = frames.map fun frame =>
      if writer.codec.kind.CanWrite frame then .ok ()
      else .error (.frameTooLarge frame.payload.size) := by
  induction frames generalizing writer with
  | nil => rfl
  | cons frame frames ih =>
      rw [results, List.map_cons, ih, kind_offer]
      split_ifs with hcan
      · rw [LinkCodec.encode_of_canWrite hcan]
      · rw [LinkCodec.encode_of_not_canWrite hcan]

/-- As long as no frame is refused, offering frames is writing them. -/
theorem foldl_next_eq (h : ∀ frame ∈ frames, writer.codec.kind.CanWrite frame) :
    frames.foldl LinkCodec.Encoding.next ⟨.ok (), writer.codec, writer.output⟩ =
      ⟨.ok (), (writer.offerAll frames).codec, (writer.offerAll frames).output⟩ := by
  induction frames generalizing writer with
  | nil => rfl
  | cons frame frames ih =>
      obtain ⟨hframe, hframes⟩ := List.forall_mem_cons.mp h
      have hnext : LinkCodec.Encoding.next ⟨.ok (), writer.codec, writer.output⟩ frame =
          ⟨.ok (), (writer.offer frame).codec, (writer.offer frame).output⟩ := by
        rcases writer.codec.encode_cases frame writer.output with
          ⟨-, later, bytes, hencode⟩ | ⟨hrefused, -⟩
        · simp only [LinkCodec.Encoding.next, offer, hencode]
        · exact absurd hframe hrefused
      rw [List.foldl_cons, hnext, offerAll_cons]
      exact ih fun other hother => (writer.kind_offer frame).symm ▸ hframes other hother

/-! ### The file header -/

variable {stage : Stage} {output : ByteArray}

/-- Behind the file header there are only tags. -/
theorem output_headed (frames : List Frame) :
    (offerAll ⟨.flv ⟨stage, true⟩, output⟩ frames).output =
      output ++ LinkCodec.joined
        ((frames.filter (CodecKind.flv.CanWrite ·)).map tagOf) := by
  let writer : Writer := ⟨.flv ⟨stage, true⟩, output⟩
  let written := frames.filter (CodecKind.flv.CanWrite ·)
  have hcan : ∀ frame ∈ written, CodecKind.flv.CanWrite frame :=
    fun frame hframe => of_decide_eq_true (List.mem_filter.mp hframe).2
  have hencodable : ∀ frame ∈ written, frame.IsEncodable :=
    fun frame hframe => (hcan frame hframe).resolve_left nofun
  have hwritten : written.foldl LinkCodec.Encoding.next ⟨.ok (), writer.codec, writer.output⟩ =
      ⟨.ok (), (writer.offerAll written).codec, (writer.offerAll written).output⟩ :=
    foldl_next_eq hcan
  calc (writer.offerAll frames).output
      = (writer.offerAll written).output :=
        congrArg Writer.output (writer.offerAll_filter frames).symm
    _ = (written.foldl LinkCodec.Encoding.next ⟨.ok (), .flv ⟨stage, true⟩, output⟩).output :=
        congrArg Encoding.output hwritten.symm
    _ = output ++ LinkCodec.joined (written.map tagOf) :=
        congrArg Encoding.output (LinkCodec.foldl_next_flv hencodable stage output)

/-- The first frame that is written brings the file header with it. -/
theorem offer_unheaded (h : CodecKind.flv.CanWrite frame) :
    offer ⟨.flv ⟨stage, false⟩, output⟩ frame =
      ⟨.flv ⟨stage, true⟩, output ++ fileHeader.toByteArray ++ tagOf frame⟩ := by
  rw [offer, LinkCodec.encode_flv _ (h.resolve_left nofun)]
  rfl

end Writer

/-- Frames that a codec refuses leave no trace in what it writes. -/
structure Writer.PassesOver (writer : Writer) : Prop where
  /-- A codec for tags refuses a tag whose payload is too large, and nothing else is refused. -/
  fails_iff : ∀ frame, (∃ error, (writer.codec.encode frame writer.output).result = .error error) ↔
    writer.codec.kind = .flv ∧ frame.tag ≠ .raw ∧ 0xFFFFFF < frame.payload.size
  unchanged : ∀ frame error, (writer.codec.encode frame writer.output).result = .error error →
    error = .frameTooLarge frame.payload.size ∧ writer.offer frame = writer
  /-- In a list of frames each is refused or not as it would be by itself. -/
  results_eq : ∀ frames, writer.results frames = frames.map fun frame =>
    (writer.codec.encode frame writer.output).result
  /-- Without those that are refused the same comes of it, -/
  without : ∀ frames, writer.offerAll (frames.filter (writer.codec.kind.CanWrite ·)) =
    writer.offerAll frames
  /-- and the list is written without an error. -/
  written_eq : ∀ frames : List Frame,
    (frames.filter (writer.codec.kind.CanWrite ·)).foldl LinkCodec.Encoding.next
        ⟨.ok (), writer.codec, writer.output⟩ =
      ⟨.ok (), (writer.offerAll frames).codec, (writer.offerAll frames).output⟩
  /-- Where all frames are refused not even the file header is written. -/
  unwritten : ∀ frames, (∀ frame ∈ frames, ¬ writer.codec.kind.CanWrite frame) →
    writer.offerAll frames = writer
  /-- Else it stands in front of the first that is not, -/
  headed : ∀ stage, writer.codec = .flv ⟨stage, false⟩ → ∀ refused frame rest,
    (∀ other ∈ refused, ¬ CodecKind.flv.CanWrite other) → CodecKind.flv.CanWrite frame →
    (writer.offerAll (refused ++ frame :: rest)).output =
      writer.output ++ fileHeader.toByteArray ++ tagOf frame ++
        LinkCodec.joined ((rest.filter (CodecKind.flv.CanWrite ·)).map tagOf)
  /-- and it is not written again. -/
  headed_once : ∀ stage, writer.codec = .flv ⟨stage, true⟩ → ∀ frames,
    (writer.offerAll frames).output = writer.output ++
      LinkCodec.joined ((frames.filter (CodecKind.flv.CanWrite ·)).map tagOf)

/-- Whatever a codec has written before, it passes over the frames that it refuses. -/
theorem Writer.passesOver (writer : Writer) : writer.PassesOver := by
  have hunwritten : ∀ frames, (∀ frame ∈ frames, ¬ writer.codec.kind.CanWrite frame) →
      writer.offerAll frames = writer := by
    intro frames hrefused
    rw [← offerAll_filter, List.filter_eq_nil_iff.mpr (by simpa using hrefused)]
    rfl
  constructor
  case fails_iff =>
    intro frame
    rw [← maxPayloadSize, ← CodecKind.not_canWrite_iff]
    constructor
    · rintro ⟨error, herror⟩ hcan
      rw [LinkCodec.encode_of_canWrite hcan] at herror
      cases herror
    · intro hrefused
      exact ⟨_, congrArg Encoding.result (LinkCodec.encode_of_not_canWrite hrefused _)⟩
  case unchanged =>
    intro frame error herror
    have hrefused : ¬ writer.codec.kind.CanWrite frame := by
      intro hcan
      rw [LinkCodec.encode_of_canWrite hcan] at herror
      cases herror
    rw [LinkCodec.encode_of_not_canWrite hrefused] at herror
    cases herror
    exact ⟨rfl, offer_of_not_canWrite hrefused⟩
  case results_eq =>
    intro frames
    rw [results_eq]
    refine List.map_congr_left fun frame _ => ?_
    split_ifs with hcan
    · rw [LinkCodec.encode_of_canWrite hcan]
    · rw [LinkCodec.encode_of_not_canWrite hcan]
  case without => exact offerAll_filter writer
  case written_eq =>
    intro frames
    rw [foldl_next_eq, offerAll_filter]
    exact fun frame hframe => of_decide_eq_true (List.mem_filter.mp hframe).2
  case unwritten => exact hunwritten
  case headed =>
    intro stage hcodec refused frame rest hrefused hcan
    obtain ⟨codec, output⟩ := writer
    obtain rfl : codec = .flv ⟨stage, false⟩ := hcodec
    have hsplit : offerAll ⟨.flv ⟨stage, false⟩, output⟩ (refused ++ frame :: rest) =
        (offerAll ⟨.flv ⟨stage, false⟩, output⟩ refused).offerAll (frame :: rest) :=
      List.foldl_append
    rw [hsplit, hunwritten refused hrefused, offerAll_cons, offer_unheaded hcan, output_headed]
  case headed_once =>
    intro stage hcodec frames
    obtain ⟨codec, output⟩ := writer
    obtain rfl : codec = .flv ⟨stage, true⟩ := hcodec
    exact output_headed frames

end LiveRelay
