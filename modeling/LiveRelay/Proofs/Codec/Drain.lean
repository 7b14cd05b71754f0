import Mathlib.Data.List.Induction
import Mathlib.Tactic.Common
import LiveRelay.Codec.Link

/-! # Streams that arrive in pieces

A reader gets its stream in pieces and drains its codec after each of them. Where the
stream is cut makes no difference: `drain_joined` says that the frames and the first error
are those of the whole stream, and `feedOn_eq_drain` that a reader which goes on behind an
error gets nothing else.
-/

namespace LiveRelay

theorem extract_append_of_le {front back : ByteArray} {start stop : Nat} (h : stop ≤ front.size) :
    (front ++ back).extract start stop = front.extract start stop := by
  have hback : back.extract (start - front.size) (stop - front.size) = .empty := by
    rw [ByteArray.extract_eq_empty_iff]
    omega
  rw [ByteArray.extract_append, hback, ByteArray.append_empty]

theorem extract_append_to_end {front back : ByteArray} {start : Nat} (h : start ≤ front.size) :
    (front ++ back).extract start (front ++ back).size
      = front.extract start front.size ++ back := by
  have hstop : front.size ≤ (front ++ back).size := by
    rw [ByteArray.size_append]
    omega
  rw [ByteArray.extract_eq_extract_append_extract front.size h hstop,
    extract_append_of_le (Nat.le_refl _),
    ByteArray.extract_append_eq_right rfl ByteArray.size_append]

/-- The first bytes of a stream are only more when more has arrived. -/
theorem extract_prefix_append (front back : ByteArray) (stop : Nat) :
    (front.extract 0 stop).data.toList <+: ((front ++ back).extract 0 stop).data.toList := by
  rw [ByteArray.extract_append, ByteArray.toList_data_append]
  exact List.prefix_append _ _

theorem length_toList_extract (bytes : ByteArray) (stop : Nat) :
    (bytes.extract 0 stop).data.toList.length = min stop bytes.size := by
  rw [Array.length_toList, ByteArray.size_data, ByteArray.size_extract, Nat.sub_zero]

namespace Flv

theorem Opening.ofBytes_append {bytes : ByteArray} (more : ByteArray)
    (h : ofBytes bytes ≠ .undecided) : ofBytes (bytes ++ more) = ofBytes bytes := by
  unfold ofBytes at h ⊢
  by_cases hsignature :
      (bytes.extract 0 signature.length).data.toList.isPrefixOf signature = true
  · rw [if_pos hsignature] at h ⊢
    have hsize : fileHeaderSize ≤ bytes.size := by
      by_contra hshort
      split at h
      next hbytes =>
        have hlength := congrArg List.length hbytes
        rw [length_toList_extract] at hlength
        simp only [List.length_cons, List.length_nil, fileHeaderSize] at hlength hshort
        omega
      next => exact h rfl
    have hfixed : signature.length ≤ bytes.size := Nat.le_trans (by decide) hsize
    rw [extract_append_of_le hfixed, if_pos hsignature, extract_append_of_le hsize]
    split at h
    next version _ d₃ d₂ d₁ d₀ _ =>
      by_cases hfull : bytes.size < BigEndian.decode [d₃, d₂, d₁, d₀] + backPointerSize
      · simp only [if_pos hfull] at h ⊢
        split_ifs at h ⊢ <;> first | rfl | exact absurd rfl h
      · have hmore :
            ¬ (bytes ++ more).size < BigEndian.decode [d₃, d₂, d₁, d₀] + backPointerSize := by
          rw [ByteArray.size_append]
          omega
        simp only [if_neg hfull, if_neg hmore]
    next => exact absurd rfl h
  · rw [if_neg hsignature] at h ⊢
    rw [if_neg]
    intro hmore
    rw [List.isPrefixOf_iff_prefix] at hmore hsignature
    exact hsignature ((extract_prefix_append _ _ _).trans hmore)

theorem Opening.length_le_size {bytes : ByteArray} {length : Nat}
    (h : ofBytes bytes = .header length) : length ≤ bytes.size := by
  unfold ofBytes at h
  split at h
  next =>
    split at h
    next version _ d₃ d₂ d₁ d₀ _ =>
      simp only [] at h
      split_ifs at h with _ _ _ hfull
      cases h
      exact Nat.le_of_not_lt hfull
    next => cases h
  next => cases h

end Flv

/-- An attempt to decode, once more bytes have arrived behind its buffer. It is repeated if
it came to nothing, and stands otherwise. -/
def Decoding.extend (decoding : Decoding FlvCodec) (more : ByteArray) : Decoding FlvCodec :=
  match decoding.result with
  | .ok none => decoding.codec.decode (decoding.buffer ++ more)
  | result => ⟨result, decoding.codec, decoding.buffer ++ more⟩

namespace FlvCodec

open Flv

/-- A tag is taken exactly when all of it is there. -/
theorem nextTag_cases (codec : FlvCodec) (buffer : ByteArray) :
    codec.nextTag buffer = ⟨.ok none, codec, buffer⟩ ∨
      ∃ header, TagHeader.ofBytes? (buffer.extract 0 tagHeaderSize).data.toList = some header ∧
        header.tagSize ≤ buffer.size ∧
        codec.nextTag buffer = ⟨.ok (some (header.frame (buffer.extract 0 header.tagSize))), codec,
          buffer.extract header.tagSize buffer.size⟩ := by
  unfold nextTag
  split
  next => exact .inl rfl
  next header hheader =>
    by_cases hsize : buffer.size < header.tagSize
    · exact .inl (if_pos hsize)
    · exact .inr ⟨header, hheader, Nat.le_of_not_lt hsize, if_neg hsize⟩

theorem nextTag_of_header {codec : FlvCodec} {buffer : ByteArray} {header : TagHeader}
    (hheader : TagHeader.ofBytes? (buffer.extract 0 tagHeaderSize).data.toList = some header)
    (hsize : header.tagSize ≤ buffer.size) :
    codec.nextTag buffer = ⟨.ok (some (header.frame (buffer.extract 0 header.tagSize))), codec,
      buffer.extract header.tagSize buffer.size⟩ := by
  unfold nextTag
  simp only [hheader]
  exact if_neg (Nat.not_lt_of_le hsize)

theorem tagHeaderSize_le_tagSize (header : TagHeader) : tagHeaderSize ≤ header.tagSize := by
  unfold TagHeader.tagSize
  omega

theorem nextTag_append {codec : FlvCodec} {buffer : ByteArray} {frame : Frame}
    (h : (codec.nextTag buffer).result = .ok (some frame)) (more : ByteArray) :
    codec.nextTag (buffer ++ more) =
      ⟨.ok (some frame), codec, (codec.nextTag buffer).buffer ++ more⟩ := by
  obtain hnone | ⟨header, hheader, hsize, htaken⟩ := codec.nextTag_cases buffer
  · rw [hnone] at h
    cases h
  · have htag := Nat.le_trans (tagHeaderSize_le_tagSize header) hsize
    have hall : header.tagSize ≤ (buffer ++ more).size := by
      rw [ByteArray.size_append]
      omega
    rw [← extract_append_of_le htag] at hheader
    rw [htaken] at h
    cases h
    rw [htaken, nextTag_of_header hheader hall, extract_append_of_le hsize,
      extract_append_to_end hsize]

theorem decode_tags {codec : FlvCodec} (h : codec.stage = .tags) (buffer : ByteArray) :
    codec.decode buffer = codec.nextTag buffer := by
  unfold decode
  rw [h]

theorem decode_start {codec : FlvCodec} (h : codec.stage = .start) (buffer : ByteArray) :
    codec.decode buffer =
      match Opening.ofBytes buffer with
      | .undecided => ⟨.ok none, codec, buffer⟩
      | .faulty fault => ⟨.error (.invalid fault), codec, buffer⟩
      | .headerless => nextTag { codec with stage := .tags } buffer
      | .header length =>
          nextTag { codec with stage := .tags } (buffer.extract length buffer.size) := by
  unfold decode
  rw [h]
  by_cases hempty : buffer.isEmpty = true
  · obtain rfl : buffer = .empty := by
      rw [← ByteArray.size_eq_zero_iff]
      simpa [ByteArray.isEmpty] using hempty
    rfl
  · cases Opening.ofBytes buffer <;> exact if_neg hempty

theorem nextTag_ne_error (codec : FlvCodec) (buffer : ByteArray) (error : CodecError) :
    (codec.nextTag buffer).result ≠ .error error := by
  intro h
  obtain hnone | ⟨_, _, _, hframe⟩ := codec.nextTag_cases buffer
  · rw [hnone] at h
    cases h
  · rw [hframe] at h
    cases h

/-- An error takes nothing, so it comes up again. -/
theorem decode_again {codec : FlvCodec} {buffer : ByteArray} {error : CodecError}
    (h : (codec.decode buffer).result = .error error) :
    codec.decode buffer = ⟨.error error, codec, buffer⟩ := by
  cases hstage : codec.stage with
  | tags =>
      rw [decode_tags hstage] at h
      exact absurd h (nextTag_ne_error _ _ _)
  | start =>
      rw [decode_start hstage] at h ⊢
      cases hopening : Opening.ofBytes buffer with
      | undecided =>
          rw [hopening] at h
          cases h
      | faulty fault =>
          rw [hopening] at h
          cases h
          rfl
      | headerless =>
          rw [hopening] at h
          exact absurd h (nextTag_ne_error _ _ _)
      | header length =>
          rw [hopening] at h
          exact absurd h (nextTag_ne_error _ _ _)

theorem nextTag_extend {codec : FlvCodec} (h : codec.stage = .tags) (buffer more : ByteArray) :
    codec.nextTag (buffer ++ more) = (codec.nextTag buffer).extend more := by
  obtain hnone | ⟨header, _, _, htaken⟩ := codec.nextTag_cases buffer
  · rw [hnone, Decoding.extend, decode_tags h]
  · have hframe : (codec.nextTag buffer).result =
        .ok (some (header.frame (buffer.extract 0 header.tagSize))) := by rw [htaken]
    rw [nextTag_append hframe, htaken, Decoding.extend]

/-- Decoding may be interrupted at any byte and gone on with when more has arrived. -/
theorem decode_append (codec : FlvCodec) (buffer more : ByteArray) :
    codec.decode (buffer ++ more) = (codec.decode buffer).extend more := by
  cases hstage : codec.stage with
  | tags => rw [decode_tags hstage, decode_tags hstage, nextTag_extend hstage]
  | start =>
      by_cases hopening : Opening.ofBytes buffer = .undecided
      · have hwaits : codec.decode buffer = ⟨.ok none, codec, buffer⟩ := by
          rw [decode_start hstage, hopening]
        rw [hwaits, Decoding.extend]
      · rw [decode_start hstage, decode_start hstage, Opening.ofBytes_append more hopening]
        cases hcase : Opening.ofBytes buffer with
        | undecided => exact absurd hcase hopening
        | faulty fault => rfl
        | headerless => exact nextTag_extend rfl buffer more
        | header length =>
            have hlength := Opening.length_le_size hcase
            simp only [extract_append_to_end hlength]
            exact nextTag_extend rfl _ more

end FlvCodec

namespace LinkCodec

/-- The outcome when one more frame has been taken first. -/
def Drained.cons (frame : Frame) (rest : Drained) : Drained :=
  { rest with frames := frame :: rest.frames }

/-- What draining comes to after the first attempt to decode. -/
def Drained.ofDecoding (decoding : Decoding LinkCodec) : Drained :=
  match decoding.result with
  | .error error => ⟨[], some error, decoding.codec, decoding.buffer⟩
  | .ok none => ⟨[], none, decoding.codec, decoding.buffer⟩
  | .ok (some frame) => (decoding.codec.drain decoding.buffer).cons frame

/-- Draining sees no more of a codec and its buffer than the first attempt to decode. -/
theorem drain_eq (codec : LinkCodec) (buffer : ByteArray) :
    codec.drain buffer = .ofDecoding (codec.decode buffer) := by
  rw [drain, Drained.ofDecoding]
  split
  next hresult => rw [hresult]
  next hresult => rw [hresult]
  next hresult => rw [hresult]; rfl

theorem drain_of_error {codec : LinkCodec} {buffer : ByteArray} {error : CodecError}
    (h : (codec.decode buffer).result = .error error) :
    codec.drain buffer =
      ⟨[], some error, (codec.decode buffer).codec, (codec.decode buffer).buffer⟩ := by
  rw [drain_eq, Drained.ofDecoding, h]

theorem drain_of_none {codec : LinkCodec} {buffer : ByteArray}
    (h : (codec.decode buffer).result = .ok none) :
    codec.drain buffer =
      ⟨[], none, (codec.decode buffer).codec, (codec.decode buffer).buffer⟩ := by
  rw [drain_eq, Drained.ofDecoding, h]

theorem drain_of_frame {codec : LinkCodec} {buffer : ByteArray} {frame : Frame}
    (h : (codec.decode buffer).result = .ok (some frame)) :
    codec.drain buffer =
      ((codec.decode buffer).codec.drain (codec.decode buffer).buffer).cons frame := by
  rw [drain_eq, Drained.ofDecoding, h]

/-- The bytes of the pieces of a stream. -/
def joined : List ByteArray → ByteArray
  | [] => .empty
  | chunk :: chunks => chunk ++ joined chunks

/-- A stream goes on with another piece. After an error it is not looked at any more. -/
def Drained.feed (drained : Drained) (chunk : ByteArray) : Drained :=
  match drained.error? with
  | some _ => drained
  | none =>
      let next := drained.codec.drain (drained.buffer ++ chunk)
      { next with frames := drained.frames ++ next.frames }

/-- Decodes a stream that arrives in pieces, and drains the codec after every piece. -/
def feed (codec : LinkCodec) (chunks : List ByteArray) : Drained :=
  chunks.foldl Drained.feed ⟨[], none, codec, .empty⟩

/-- A stream goes on with another piece, also behind an error. The first error is kept. -/
def Drained.feedOn (drained : Drained) (chunk : ByteArray) : Drained :=
  let next := drained.codec.drain (drained.buffer ++ chunk)
  { next with
    frames := drained.frames ++ next.frames
    error? := drained.error?.or next.error? }

/-- Decodes a stream that arrives in pieces to its end, whatever is wrong with it. -/
def feedOn (codec : LinkCodec) (chunks : List ByteArray) : Drained :=
  chunks.foldl Drained.feedOn ⟨[], none, codec, .empty⟩

@[simp] theorem joined_append (front back : List ByteArray) :
    joined (front ++ back) = joined front ++ joined back := by
  induction front with
  | nil => exact ByteArray.empty_append.symm
  | cons chunk front ih => rw [List.cons_append, joined, joined, ih, ByteArray.append_assoc]

@[simp] theorem joined_singleton (chunk : ByteArray) : joined [chunk] = chunk := by
  rw [joined, joined, ByteArray.append_empty]

theorem feed_append_singleton (codec : LinkCodec) (chunks : List ByteArray) (chunk : ByteArray) :
    codec.feed (chunks ++ [chunk]) = (codec.feed chunks).feed chunk := List.foldl_append

/-- On a raw link every piece is a frame, unless it is empty. -/
theorem drain_raw (buffer : ByteArray) :
    raw.drain buffer = ⟨if buffer.isEmpty then [] else [.raw buffer], none, raw, .empty⟩ := by
  have hempty : raw.drain .empty = ⟨[], none, raw, .empty⟩ := drain_of_none rfl
  by_cases h : buffer.isEmpty
  · obtain rfl : buffer = .empty := by simpa [ByteArray.isEmpty] using h
    exact hempty
  · have hframe : raw.decode buffer = ⟨.ok (some (.raw buffer)), raw, .empty⟩ := by
      simp only [decode, Raw.decode, if_neg h]
    have hresult : (raw.decode buffer).result = .ok (some (.raw buffer)) := by rw [hframe]
    rw [drain_of_frame hresult, hframe, hempty, if_neg h]
    rfl

theorem feed_raw (chunks : List ByteArray) :
    raw.feed chunks =
      ⟨chunks.flatMap fun chunk => if chunk.isEmpty then [] else [.raw chunk], none, raw,
        .empty⟩ := by
  have hfrom : ∀ frames : List Frame,
      chunks.foldl Drained.feed ⟨frames, none, raw, .empty⟩ =
        ⟨frames ++ chunks.flatMap fun chunk => if chunk.isEmpty then [] else [.raw chunk], none,
          raw, .empty⟩ := by
    induction chunks with
    | nil => intro frames; simp
    | cons chunk chunks ih =>
        intro frames
        rw [List.foldl_cons, Drained.feed]
        simp only [ByteArray.empty_append, drain_raw]
        rw [ih, List.flatMap_cons, List.append_assoc]
  exact hfrom []

theorem feed_raw_of_nonempty {chunks : List ByteArray}
    (h : ∀ chunk ∈ chunks, chunk.isEmpty = false) :
    raw.feed chunks = ⟨chunks.map .raw, none, raw, .empty⟩ := by
  rw [feed_raw]
  congr 1
  induction chunks with
  | nil => rfl
  | cons chunk chunks ih =>
      rw [List.flatMap_cons, h chunk List.mem_cons_self,
        ih fun other hother => h other (List.mem_cons_of_mem _ hother)]
      rfl

/-- The outcome of draining once more bytes have arrived behind what it left. Behind an
error they stay where they are. -/
def Drained.extend (drained : Drained) (more : ByteArray) : Drained :=
  match drained.error? with
  | some _ => { drained with buffer := drained.buffer ++ more }
  | none => drained.feed more

theorem Drained.extend_cons (frame : Frame) (drained : Drained) (more : ByteArray) :
    (drained.cons frame).extend more = (drained.extend more).cons frame := by
  obtain ⟨frames, error?, codec, buffer⟩ := drained
  cases error? <;> rfl

theorem decode_flv_append (codec : FlvCodec) (buffer more : ByteArray) :
    (flv codec).decode (buffer ++ more) =
      let decoding := (codec.decode buffer).extend more
      ⟨decoding.result, flv decoding.codec, decoding.buffer⟩ := by
  simp only [decode, FlvCodec.decode_append]

/-- A stream may be cut anywhere: draining its front and then the rest is draining the
whole. -/
theorem drain_append (codec : FlvCodec) (buffer more : ByteArray) :
    (flv codec).drain (buffer ++ more) = ((flv codec).drain buffer).extend more := by
  -- Every frame that is taken shortens the buffer.
  induction hsize : buffer.size using Nat.strongRecOn generalizing codec buffer with
  | ind size ih =>
      rw [drain_eq, decode_flv_append, Decoding.extend]
      match hresult : (codec.decode buffer).result with
      | .error error =>
          have herror : ((flv codec).decode buffer).result = .error error := hresult
          rw [drain_of_error herror]
          rfl
      | .ok none =>
          have hnone : ((flv codec).decode buffer).result = .ok none := hresult
          rw [drain_of_none hnone]
          exact (drain_eq (flv (codec.decode buffer).codec)
            ((codec.decode buffer).buffer ++ more)).symm
      | .ok (some frame) =>
          have hframe : ((flv codec).decode buffer).result = .ok (some frame) := hresult
          have hlt := hsize ▸ FlvCodec.decode_size_lt hresult
          rw [drain_of_frame hframe, Drained.extend_cons]
          exact congrArg (Drained.cons frame) (ih _ hlt _ _ rfl)

theorem drain_empty (codec : FlvCodec) :
    (flv codec).drain .empty = ⟨[], none, flv codec, .empty⟩ := by
  obtain ⟨stage, headerWritten⟩ := codec
  cases stage <;> exact drain_of_none rfl

/-- A reader that stopped at an error has left the pieces behind it unread. What it has got
is what the bytes of the stream say, except that the unread ones are not in its buffer. -/
theorem drain_joined (codec : FlvCodec) (chunks : List ByteArray) :
    ∃ unread, unread <:+ chunks ∧
      (((flv codec).feed chunks).error? = none → unread = []) ∧
      (flv codec).drain (joined chunks) =
        { (flv codec).feed chunks with
          buffer := ((flv codec).feed chunks).buffer ++ joined unread } := by
  induction chunks using List.reverseRecOn with
  | nil => exact ⟨[], List.suffix_refl _, fun _ => rfl, drain_empty codec⟩
  | append_singleton chunks chunk ih =>
      obtain ⟨unread, hsuffix, hread, hdrain⟩ := ih
      rw [feed_append_singleton, joined_append, joined_singleton, drain_append, hdrain,
        Drained.feed]
      cases herror : ((flv codec).feed chunks).error? with
      | some error =>
          refine ⟨unread ++ [chunk], ?_, ?_, ?_⟩
          · obtain ⟨read, hread⟩ := hsuffix
            exact ⟨read, by rw [← List.append_assoc, hread]⟩
          · intro hnone
            rw [herror] at hnone
            cases hnone
          · simp only [Drained.extend, herror, joined_append, joined_singleton,
              ByteArray.append_assoc]
      | none =>
          refine ⟨[], List.nil_suffix, fun _ => rfl, ?_⟩
          rw [hread herror]
          simp only [Drained.extend, herror, Drained.feed, joined, ByteArray.append_empty]

/-- However a stream is cut into pieces, what is decoded is what its bytes say. -/
theorem feed_eq_drain {codec : FlvCodec} {chunks : List ByteArray}
    (h : ((flv codec).drain (joined chunks)).error? = none) :
    (flv codec).feed chunks = (flv codec).drain (joined chunks) := by
  obtain ⟨unread, -, hread, hdrain⟩ := drain_joined codec chunks
  have herror : ((flv codec).feed chunks).error? = none := by
    rw [hdrain] at h
    exact h
  rw [hdrain, hread herror, joined, ByteArray.append_empty]

/-- Where draining ends with an error, the next attempt to decode ends with it as well. -/
theorem decode_of_drain_error {codec : FlvCodec} {buffer : ByteArray} {error : CodecError}
    (h : ((flv codec).drain buffer).error? = some error) :
    ∃ frames left rest, (flv codec).drain buffer = ⟨frames, some error, flv left, rest⟩ ∧
      left.decode rest = ⟨.error error, left, rest⟩ := by
  induction hsize : buffer.size using Nat.strongRecOn generalizing codec buffer with
  | ind size ih =>
      match hresult : (codec.decode buffer).result with
      | .error first =>
          have herror : ((flv codec).decode buffer).result = .error first := hresult
          have hagain := FlvCodec.decode_again hresult
          rw [drain_of_error herror] at h ⊢
          cases h
          exact ⟨[], codec, buffer, by simp only [decode, hagain], hagain⟩
      | .ok none =>
          have hnone : ((flv codec).decode buffer).result = .ok none := hresult
          rw [drain_of_none hnone] at h
          cases h
      | .ok (some frame) =>
          have hframe : ((flv codec).decode buffer).result = .ok (some frame) := hresult
          have hlt := hsize ▸ FlvCodec.decode_size_lt hresult
          rw [drain_of_frame hframe] at h ⊢
          obtain ⟨frames, left, rest, hdrain, hdecode⟩ := ih _ hlt h rfl
          exact ⟨frame :: frames, left, rest, congrArg (Drained.cons frame) hdrain, hdecode⟩

/-- A reader that goes on behind an error gets nothing else than one that reads at once. -/
theorem feedOn_drain (codec : FlvCodec) (buffer chunk : ByteArray) :
    ((flv codec).drain buffer).feedOn chunk = (flv codec).drain (buffer ++ chunk) := by
  rw [drain_append, Drained.extend]
  cases herror : ((flv codec).drain buffer).error? with
  | none => simp only [Drained.feedOn, Drained.feed, herror, Option.none_or]
  | some error =>
      obtain ⟨frames, left, rest, hdrain, hdecode⟩ := decode_of_drain_error herror
      have hnext : (flv left).decode (rest ++ chunk) =
          ⟨.error error, flv left, rest ++ chunk⟩ := by
        rw [decode_flv_append, hdecode, Decoding.extend]
      have hagain : (flv left).drain (rest ++ chunk) =
          ⟨[], some error, flv left, rest ++ chunk⟩ := by
        rw [drain_eq, hnext, Drained.ofDecoding]
      simp only [hdrain, Drained.feedOn, hagain, List.append_nil, Option.some_or]

theorem feedOn_eq_drain (codec : FlvCodec) (chunks : List ByteArray) :
    (flv codec).feedOn chunks = (flv codec).drain (joined chunks) := by
  induction chunks using List.reverseRecOn with
  | nil => exact (drain_empty codec).symm
  | append_singleton chunks chunk ih =>
      rw [feedOn, List.foldl_append, List.foldl_cons, List.foldl_nil, ← feedOn, ih, feedOn_drain,
        joined_append, joined_singleton]

end LinkCodec

end LiveRelay
