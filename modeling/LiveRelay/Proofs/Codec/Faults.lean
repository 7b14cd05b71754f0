import LiveRelay.Proofs.Codec.Grammar

/-! # Where decoding fails

Nothing but a file header can be wrong with a stream, and it is judged as soon as its nine
fixed bytes are there. A reader that has found fault with it takes nothing and is stuck for
good. One that has got past it, or has found none, never fails again.
-/

namespace LiveRelay

open Flv

namespace Flv

/-- The version that a stream states, if it opens with a header. -/
def statedVersion? (stream : ByteArray) : Option UInt8 := stream.data.toList[3]?

/-- The data offset that a stream states, if it opens with a header. -/
def statedOffset (stream : ByteArray) : Nat :=
  BigEndian.decode ((stream.data.toList.drop 5).take 4)

/-- The nine bytes that every header has are there, and what they say is out of bounds. -/
structure StatesFault (stream : ByteArray) : Prop where
  complete : 9 ≤ stream.size
  signature : stream.data.toList.take 3 = signature
  outOfBounds : statedVersion? stream ≠ some 1 ∨ statedOffset stream < 9 ∨
    1033 < statedOffset stream

variable {version flags : UInt8} {offset : Nat}

theorem statedVersion?_statedHeader (rest : ByteArray) :
    statedVersion? ((statedHeader version flags offset).toByteArray ++ rest) = some version := by
  rw [statedVersion?, ByteArray.toList_data_append, List.toList_data_toByteArray]
  rfl

theorem statedOffset_statedHeader (h : offset < Nat.pow 256 4) (rest : ByteArray) :
    statedOffset ((statedHeader version flags offset).toByteArray ++ rest) = offset := by
  have hfield : ((statedHeader version flags offset ++ rest.data.toList).drop 5).take 4 =
      BigEndian.encode 4 offset := rfl
  rw [statedOffset, ByteArray.toList_data_append, List.toList_data_toByteArray, hfield,
    BigEndian.decode_encode, Nat.mod_eq_of_lt h]

theorem take_statedHeader (rest : ByteArray) :
    ((statedHeader version flags offset).toByteArray ++ rest).data.toList.take 3 = signature := by
  rw [ByteArray.toList_data_append, List.toList_data_toByteArray]
  rfl

/-- Each fault of a header is a field out of bounds, and the other way round. -/
theorem statesFault_iff {stream : ByteArray} :
    StatesFault stream ↔ ∃ fault, HeaderFault stream fault := by
  constructor
  · rintro ⟨hcomplete, hsignature, hbounds⟩
    have hopens : OpensLikeHeader stream := by
      rw [OpensLikeHeader, toList_extract_zero]
      exact ⟨[], (List.append_nil _).trans hsignature⟩
    obtain ⟨version, flags, offset, rest, hoffset, rfl⟩ := exists_statedHeader hopens hcomplete
    rw [statedVersion?_statedHeader, statedOffset_statedHeader hoffset] at hbounds
    by_cases hversion : version = 1
    · subst hversion
      rcases hbounds with hversion | hshort | hlong
      · exact absurd rfl hversion
      · exact ⟨_, .short flags hshort rest⟩
      · exact ⟨_, .long flags hlong hoffset rest⟩
    · exact ⟨_, .version hversion flags hoffset rest⟩
  · rintro ⟨fault, hfault⟩
    have hsize : ∀ (version flags : UInt8) (offset : Nat) (rest : ByteArray),
        9 ≤ ((statedHeader version flags offset).toByteArray ++ rest).size := by
      intro version flags offset rest
      rw [ByteArray.size_append, List.size_toByteArray]
      exact Nat.le_add_right 9 _
    cases hfault with
    | version h flags hoffset rest =>
        refine ⟨hsize _ _ _ _, take_statedHeader rest, .inl ?_⟩
        rw [statedVersion?_statedHeader]
        exact fun heq => h (Option.some.inj heq)
    | short flags h rest =>
        refine ⟨hsize _ _ _ _, take_statedHeader rest, .inr (.inl ?_)⟩
        rw [statedOffset_statedHeader (Nat.lt_trans h (by decide))]
        exact h
    | long flags h hoffset rest =>
        refine ⟨hsize _ _ _ _, take_statedHeader rest, .inr (.inr ?_)⟩
        rw [statedOffset_statedHeader hoffset]
        exact h

end Flv

/-! ## Attempts to decode -/

namespace Flv

/-- The tags of a stream, of which a codec at this stage is given the rest. -/
inductive TagsBegin : Stage → ByteArray → ByteArray → Prop
  | going (tags : ByteArray) : TagsBegin .tags tags tags
  | headerless {tags : ByteArray} (h : ¬ OpensLikeHeader tags) : TagsBegin .start tags tags
  | headed (header : FileHeader) (tags : ByteArray) :
      TagsBegin .start (header.bytes ++ tags) tags

end Flv

namespace FlvCodec

variable {codec : FlvCodec} {buffer : ByteArray}

theorem decode_of_tagsBegin {tags : ByteArray} (h : TagsBegin codec.stage buffer tags) :
    codec.decode buffer = nextTag { codec with stage := .tags } tags := by
  obtain ⟨stage, headerWritten⟩ := codec
  cases h with
  | going => exact decode_tags rfl _
  | headerless h => rw [decode_start rfl, opening_headerless h]
  | headed header =>
      have hskip : (header.bytes ++ tags).extract header.bytes.size (header.bytes ++ tags).size =
          tags := ByteArray.extract_append_eq_right rfl ByteArray.size_append
      rw [decode_start rfl, opening_bytes]
      simp only [hskip]

theorem decode_of_breaksOff (hstage : codec.stage = .start) (h : BreaksOff buffer) :
    codec.decode buffer = ⟨.ok none, codec, buffer⟩ := by
  rw [decode_start hstage, opening_breaksOff h]

theorem decode_of_headerFault (hstage : codec.stage = .start) {fault : StreamFault}
    (h : HeaderFault buffer fault) :
    codec.decode buffer = ⟨.error (.invalid fault), codec, buffer⟩ := by
  rw [decode_start hstage, opening_headerFault h]

/-- A codec waits for the rest of a header, finds fault with it, or looks for a tag. -/
theorem decode_cases (codec : FlvCodec) (buffer : ByteArray) :
    (codec.stage = .start ∧ BreaksOff buffer) ∨
      (codec.stage = .start ∧ ∃ fault, HeaderFault buffer fault) ∨
      ∃ tags, TagsBegin codec.stage buffer tags := by
  obtain ⟨stage, headerWritten⟩ := codec
  cases stage with
  | tags => exact .inr (.inr ⟨buffer, .going buffer⟩)
  | start =>
      rcases opening_cases buffer with hheaderless | hbreaks | hfault | ⟨header, tags, rfl⟩
      · exact .inr (.inr ⟨buffer, .headerless hheaderless⟩)
      · exact .inl ⟨rfl, hbreaks⟩
      · exact .inr (.inl ⟨rfl, hfault⟩)
      · exact .inr (.inr ⟨tags, .headed header tags⟩)

theorem codec_nextTag (codec : FlvCodec) (buffer : ByteArray) :
    (codec.nextTag buffer).codec = codec := by
  obtain hnone | ⟨_, _, _, htaken⟩ := codec.nextTag_cases buffer
  · rw [hnone]
  · rw [htaken]

/-- A codec fails where it has yet to look for a tag and the header is at fault. -/
theorem decode_error_iff {error : CodecError} : (codec.decode buffer).result = .error error ↔
    codec.stage = .start ∧ ∃ fault, HeaderFault buffer fault ∧ error = .invalid fault := by
  constructor
  · intro herror
    rcases codec.decode_cases buffer with ⟨hstage, hbreaks⟩ | ⟨hstage, fault, hfault⟩ | ⟨tags, h⟩
    · rw [decode_of_breaksOff hstage hbreaks] at herror
      cases herror
    · rw [decode_of_headerFault hstage hfault] at herror
      cases herror
      exact ⟨hstage, fault, hfault, rfl⟩
    · rw [decode_of_tagsBegin h] at herror
      exact absurd herror (nextTag_ne_error _ _ _)
  · rintro ⟨hstage, fault, hfault, rfl⟩
    rw [decode_of_headerFault hstage hfault]

/-- After an attempt to decode, a codec is past the header if it is clear where the tags
begin. -/
theorem stage_decode_iff :
    (codec.decode buffer).codec.stage = .tags ↔ ∃ tags, TagsBegin codec.stage buffer tags := by
  constructor
  · intro hstage
    rcases codec.decode_cases buffer with ⟨hstart, hbreaks⟩ | ⟨hstart, fault, hfault⟩ | htags
    · rw [decode_of_breaksOff hstart hbreaks, hstart] at hstage
      cases hstage
    · rw [decode_of_headerFault hstart hfault, hstart] at hstage
      cases hstage
    · exact htags
  · rintro ⟨tags, h⟩
    rw [decode_of_tagsBegin h, codec_nextTag]

/-- A codec that is past the header stays so. -/
theorem stage_decode_of_tags (h : codec.stage = .tags) :
    (codec.decode buffer).codec.stage = .tags :=
  stage_decode_iff.mpr ⟨buffer, h ▸ .going buffer⟩

end FlvCodec

/-! ## Readers -/

/-- What happens to a reader: bytes arrive, or it tries to take a frame. -/
inductive ReaderAct where
  | receive (bytes : ByteArray)
  | decode

/-- A codec with the bytes that it has not taken yet. -/
structure Reader where
  codec : FlvCodec
  buffer : ByteArray

namespace Reader

def act (reader : Reader) : ReaderAct → Reader
  | .receive bytes => { reader with buffer := reader.buffer ++ bytes }
  | .decode =>
      let decoding := reader.codec.decode reader.buffer
      ⟨decoding.codec, decoding.buffer⟩

/-- What is left of a reader after some acts. -/
def afterAll (reader : Reader) (acts : List ReaderAct) : Reader := acts.foldl act reader

/-- What its attempts to take a frame come to. -/
def results (reader : Reader) : List ReaderAct → List (Except CodecError (Option Frame))
  | [] => []
  | .receive bytes :: acts => (reader.act (.receive bytes)).results acts
  | .decode :: acts =>
      (reader.codec.decode reader.buffer).result :: (reader.act .decode).results acts

/-- The bytes that arrive. -/
def received : List ReaderAct → ByteArray
  | [] => .empty
  | .receive bytes :: acts => bytes ++ received acts
  | .decode :: acts => received acts

theorem afterAll_cons (reader : Reader) (act : ReaderAct) (acts : List ReaderAct) :
    reader.afterAll (act :: acts) = (reader.act act).afterAll acts := List.foldl_cons ..

/-- A reader that has failed fails again, and only gathers what arrives. -/
theorem stuck (reader : Reader) {error : CodecError}
    (h : (reader.codec.decode reader.buffer).result = .error error) (acts : List ReaderAct) :
    (∀ result ∈ reader.results acts, result = .error error) ∧
      reader.afterAll acts = ⟨reader.codec, reader.buffer ++ received acts⟩ := by
  induction acts generalizing reader with
  | nil =>
      refine ⟨nofun, ?_⟩
      rw [received, ByteArray.append_empty]
      rfl
  | cons act acts ih =>
      have hagain := FlvCodec.decode_again h
      rw [afterAll_cons]
      cases act with
      | receive bytes =>
          have hmore : (reader.codec.decode (reader.buffer ++ bytes)).result = .error error := by
            rw [FlvCodec.decode_append, hagain, Decoding.extend]
          rw [received, ← ByteArray.append_assoc]
          exact ih (reader.act (.receive bytes)) hmore
      | decode =>
          have hsame : reader.act .decode = reader := by rw [act, hagain]
          obtain ⟨hresults, hafter⟩ := ih reader h
          rw [results, received, hsame]
          exact ⟨List.forall_mem_cons.mpr ⟨h, hresults⟩, hafter⟩

/-- A reader that is past the header never fails. -/
theorem settled (reader : Reader) (h : reader.codec.stage = .tags) (acts : List ReaderAct) :
    ∀ result ∈ reader.results acts, ∀ error, result ≠ .error error := by
  induction acts generalizing reader with
  | nil => nofun
  | cons act acts ih =>
      cases act with
      | receive bytes => exact ih (reader.act (.receive bytes)) h
      | decode =>
          intro result hresult
          rcases List.mem_cons.mp hresult with rfl | hlater
          · rw [FlvCodec.decode_tags h]
            exact FlvCodec.nextTag_ne_error _ _
          · exact ih (reader.act .decode) (FlvCodec.stage_decode_of_tags h) result hlater

end Reader

/-- Where and how decoding from this buffer fails. -/
structure FailsInHeader (codec : FlvCodec) (buffer : ByteArray) : Prop where
  /-- It fails on a header that is out of bounds, if none has been dealt with before. -/
  fails_iff : (∃ error, (codec.decode buffer).result = .error error) ↔
    codec.stage = .start ∧ StatesFault buffer
  /-- Nothing is taken then, and the same error comes up ever after, whatever arrives. -/
  stuck : ∀ error, (codec.decode buffer).result = .error error →
    codec.decode buffer = ⟨.error error, codec, buffer⟩ ∧
      ∀ acts, (∀ result ∈ (Reader.mk codec buffer).results acts, result = .error error) ∧
        (Reader.mk codec buffer).afterAll acts = ⟨codec, buffer ++ Reader.received acts⟩
  /-- The header has been dealt with once there is none or all of it is there, -/
  decides : (codec.decode buffer).codec.stage = .tags ↔
    ∃ tags, TagsBegin codec.stage buffer tags
  /-- and from then on nothing fails, whatever arrives. -/
  settled : codec.stage = .tags → ∀ acts,
    ∀ result ∈ (Reader.mk codec buffer).results acts, ∀ error, result ≠ .error error

/-- Decoding fails in the header of a stream or not at all, and for good. -/
theorem FlvCodec.failsInHeader (codec : FlvCodec) (buffer : ByteArray) :
    FailsInHeader codec buffer := by
  constructor
  case fails_iff =>
    rw [statesFault_iff]
    constructor
    · rintro ⟨error, herror⟩
      obtain ⟨hstage, fault, hfault, -⟩ := decode_error_iff.mp herror
      exact ⟨hstage, fault, hfault⟩
    · rintro ⟨hstage, fault, hfault⟩
      exact ⟨.invalid fault, decode_error_iff.mpr ⟨hstage, fault, hfault, rfl⟩⟩
  case stuck =>
    intro error herror
    exact ⟨decode_again herror, Reader.stuck ⟨codec, buffer⟩ herror⟩
  case decides => exact stage_decode_iff
  case settled => exact fun hstage => Reader.settled ⟨codec, buffer⟩ hstage

end LiveRelay
