import LiveRelay.Proofs.Codec.Faults
import LiveRelay.Proofs.Endpoint.Independence
import LiveRelay.Proofs.Endpoint.Traffic

/-! # Which tags an endpoint lets pass

A script tag is judged by the name that its payload opens with, and every other tag by its type
alone. Whether there is a name, and which, is said here of the bytes of the payload. A name that
is written down in full is the one that is read, whatever stands behind it.
-/

namespace LiveRelay

open Flv

namespace Flv

/-! ## The name of a payload -/

/-- The length that stands behind the marker of a payload. -/
def statedLength (payload : ByteArray) : Nat :=
  BigEndian.decode ((payload.data.toList.drop 1).take 2)

/-- No name can be read from the payload. -/
inductive IsNameless (payload : ByteArray) : Prop
  /-- There is no room for a marker and a length. -/
  | short (h : payload.size < 3)
  /-- It opens with something that is not a string. -/
  | unmarked (h : payload.data.toList.head? ≠ some 2)
  /-- It ends before the name does. -/
  | cut (h : payload.size < 3 + statedLength payload)
  /-- What stands in the place of the name is no text. -/
  | garbled (h : ¬ (payload.extract 3 (3 + statedLength payload)).IsValidUTF8)

/-- A payload that opens with this name: the marker, the length, and the text. -/
def namedPayload (name : String) (rest : ByteArray) : ByteArray :=
  (2 :: BigEndian.encode 2 name.utf8ByteSize).toByteArray ++ name.toByteArray ++ rest

theorem fromUTF8?_eq_none_iff {bytes : ByteArray} :
    String.fromUTF8? bytes = none ↔ ¬ bytes.IsValidUTF8 := by
  unfold String.fromUTF8?
  split_ifs with hvalid
  · simp [hvalid]
  · simp [hvalid]

variable {payload : ByteArray}

theorem scriptKey?_of_short (h : payload.size < 3) : scriptKey? payload = none := by
  unfold scriptKey?
  split
  next hbytes =>
    have hlength := congrArg List.length hbytes
    rw [length_toList_extract] at hlength
    simp only [List.length_cons, List.length_nil] at hlength
    omega
  next => rfl

/-- Where there is room for them, the marker and the length are read and then the name. -/
theorem scriptKey?_of_long (h : 3 ≤ payload.size) :
    scriptKey? payload =
      if payload.data.toList.head? = some 2 ∧ 3 + statedLength payload ≤ payload.size then
        String.fromUTF8? (payload.extract 3 (3 + statedLength payload))
      else none := by
  have hlength : payload.data.toList.length = payload.size := Array.length_toList
  unfold scriptKey? statedLength
  rw [toList_extract_zero]
  match hbytes : payload.data.toList with
  | [] | [_] | [_, _] =>
      simp only [hbytes, List.length_cons, List.length_nil] at hlength
      omega
  | marker :: l₁ :: l₀ :: rest => simp

theorem scriptKey?_eq_none_iff : scriptKey? payload = none ↔ IsNameless payload := by
  by_cases hshort : payload.size < 3
  · rw [scriptKey?_of_short hshort]
    exact ⟨fun _ => .short hshort, fun _ => rfl⟩
  rw [scriptKey?_of_long (Nat.le_of_not_lt hshort)]
  constructor
  · intro hnone
    split_ifs at hnone with hname
    · exact .garbled (fromUTF8?_eq_none_iff.mp hnone)
    · by_cases hmarker : payload.data.toList.head? = some 2
      · exact .cut (Nat.lt_of_not_le fun hfits => hname ⟨hmarker, hfits⟩)
      · exact .unmarked hmarker
  · intro hnameless
    split_ifs with hname
    · cases hnameless with
      | short h => exact absurd h hshort
      | unmarked h => exact absurd hname.1 h
      | cut h => exact absurd hname.2 (Nat.not_le_of_lt h)
      | garbled h => exact fromUTF8?_eq_none_iff.mpr h
    · rfl

theorem opensWith_namedPayload {name : String} (h : name.utf8ByteSize ≤ 65535)
    (rest : ByteArray) : OpensWith (namedPayload name rest) name :=
  ⟨Nat.lt_succ_of_le h, rest, rfl⟩

end Flv

/-! ## The frames of tags -/

namespace FlvCodec

variable {codec : FlvCodec} {buffer : ByteArray}

theorem decode_bytes {tag : Tag} {rest : ByteArray}
    (h : TagsBegin codec.stage buffer (tag.bytes ++ rest)) :
    codec.decode buffer = ⟨.ok (some tag.frame), { codec with stage := .tags }, rest⟩ := by
  rw [decode_of_tagsBegin h, nextTag_bytes]

/-- A frame that is decoded is that of a tag. -/
theorem exists_tag_of_decode {frame : Frame} (h : (codec.decode buffer).result = .ok (some frame)) :
    ∃ (tag : Tag) (rest : ByteArray), TagsBegin codec.stage buffer (tag.bytes ++ rest) ∧
      frame = tag.frame := by
  rcases codec.decode_cases buffer with ⟨hstage, hbreaks⟩ | ⟨hstage, fault, hfault⟩ | ⟨tags, htags⟩
  · rw [decode_of_breaksOff hstage hbreaks] at h
    cases h
  · rw [decode_of_headerFault hstage hfault] at h
    cases h
  · by_cases hwhole : ∃ (tag : Tag) (rest : ByteArray), tags = tag.bytes ++ rest
    · obtain ⟨tag, rest, rfl⟩ := hwhole
      rw [decode_bytes htags] at h
      cases h
      exact ⟨tag, rest, htags, rfl⟩
    · simp only [not_exists] at hwhole
      rw [decode_of_tagsBegin htags, nextTag_of_no_tag hwhole] at h
      cases h

end FlvCodec

namespace StreamFilter

variable {tag : Tag}

theorem frame_of_script (h : tag.kind = 18) :
    tag.frame = .data tag.timestamp (scriptKey? tag.payload) tag.payload := by
  unfold Tag.frame
  simp [h]

/-- A script tag is rejected for the name that it opens with, or with all of its kind. -/
theorem allows_script_eq_false_iff (filter : StreamFilter) (h : tag.kind = 18) :
    filter.allows tag.frame = false ↔
      filter.data = false ∨ ∃ name ∈ filter.blacklist, OpensWith tag.payload name := by
  have hlisted : (scriptKey? tag.payload).any filter.blacklist.contains = true ↔
      ∃ name ∈ filter.blacklist, OpensWith tag.payload name := by
    simp only [Option.any_eq_true, List.contains_iff_mem, scriptKey?_eq_some_iff]
    constructor
    · rintro ⟨name, hopens, hname⟩
      exact ⟨name, hname, hopens⟩
    · rintro ⟨name, hname, hopens⟩
      exact ⟨name, hopens, hname⟩
  rw [frame_of_script h, ← hlisted]
  simp only [allows, Frame.data]
  cases filter.data <;> simp

end StreamFilter

namespace Endpoint

theorem filter_afterAll (endpoint : Endpoint) (acts : List EndpointAct) :
    (endpoint.afterAll acts).fanOut.filter = endpoint.fanOut.filter := by
  induction acts generalizing endpoint with
  | nil => rfl
  | cons act acts ih => exact (ih _).trans (EndpointStep.fanOut_after ⟨endpoint, act⟩).1

end Endpoint

/-- What the fan-out of an endpoint with these settings makes of the tags of a stream. -/
structure FanOut.JudgesTags (fanOut : FanOut) (config : EndpointConfig) : Prop where
  /-- Every whole tag that a codec gets to becomes a frame, -/
  decoded : ∀ (codec : FlvCodec) (tag : Tag) (buffer rest : ByteArray),
    TagsBegin codec.stage buffer (tag.bytes ++ rest) →
      codec.decode buffer = ⟨.ok (some tag.frame), { codec with stage := .tags }, rest⟩
  /-- and there are no other frames. -/
  of_decoded : ∀ (codec : FlvCodec) (buffer : ByteArray) (frame : Frame),
    (codec.decode buffer).result = .ok (some frame) → ∃ (tag : Tag) (rest : ByteArray),
      TagsBegin codec.stage buffer (tag.bytes ++ rest) ∧ frame = tag.frame
  /-- A frame that is rejected reaches no sink. -/
  filtered_iff : fanOut.closed = false → ∀ frame,
    (fanOut.publish frame).1 = .filtered ↔ fanOut.filter.allows frame = false
  /-- Script tags are rejected all together or by their names. -/
  script_rejected_iff : ∀ tag : Tag, tag.kind = 18 →
    (fanOut.filter.allows tag.frame = false ↔
      config.data = false ∨ ∃ name ∈ config.metadataBlacklist, OpensWith tag.payload name)
  key_iff : ∀ tag : Tag, tag.kind = 18 → ∀ name,
    tag.frame.key? = some name ↔ OpensWith tag.payload name
  /-- One without a name passes, if any does. -/
  nameless : ∀ tag : Tag, tag.kind = 18 →
    (tag.frame.key? = none ↔ IsNameless tag.payload) ∧
      (IsNameless tag.payload → config.data = true → fanOut.filter.allows tag.frame = true)
  /-- What follows a name does not change what is read, -/
  key_of_named : ∀ (name : String) (rest : ByteArray), name.utf8ByteSize ≤ 65535 →
    scriptKey? (namedPayload name rest) = some name
  /-- and lets no name of the list slip through. -/
  named_rejected : ∀ (tag : Tag) (name : String) (rest : ByteArray), tag.kind = 18 →
    tag.payload = namedPayload name rest → name.utf8ByteSize ≤ 65535 →
      name ∈ config.metadataBlacklist → fanOut.filter.allows tag.frame = false
  audio : ∀ tag : Tag, tag.kind = 8 → fanOut.filter.allows tag.frame = config.audio
  video : ∀ tag : Tag, tag.kind = 9 → fanOut.filter.allows tag.frame = config.video
  foreign : ∀ tag : Tag, tag.IsForeign → fanOut.filter.allows tag.frame = true

/-- Whatever has happened to an endpoint, tags pass it by its settings and by their bytes. -/
theorem Endpoint.ofConfig_judgesTags (parent : ComponentPath) (index : Nat)
    (config : EndpointConfig) (acts : List EndpointAct) :
    ((Endpoint.ofConfig parent index config).afterAll acts).fanOut.JudgesTags config := by
  have hfilter := filter_afterAll (Endpoint.ofConfig parent index config) acts
  generalize ((Endpoint.ofConfig parent index config).afterAll acts).fanOut = fanOut at hfilter
  have hscript : ∀ tag : Tag, tag.kind = 18 → (fanOut.filter.allows tag.frame = false ↔
      config.data = false ∨ ∃ name ∈ config.metadataBlacklist, OpensWith tag.payload name) := by
    intro tag hkind
    rw [hfilter]
    exact StreamFilter.allows_script_eq_false_iff _ hkind
  have hkey : ∀ tag : Tag, tag.kind = 18 → tag.frame.key? = scriptKey? tag.payload := by
    intro tag hkind
    rw [StreamFilter.frame_of_script hkind]
    rfl
  constructor
  case decoded => exact fun codec tag buffer rest h => FlvCodec.decode_bytes h
  case of_decoded => exact fun codec buffer frame h => FlvCodec.exists_tag_of_decode h
  case filtered_iff =>
    intro hopen frame
    cases hallows : fanOut.filter.allows frame with
    | false => simp [FanOut.publish_of_refused hopen hallows]
    | true => simp [FanOut.publish_of_allowed hopen hallows]
  case script_rejected_iff => exact hscript
  case key_iff =>
    intro tag hkind name
    rw [hkey tag hkind]
    exact scriptKey?_eq_some_iff
  case nameless =>
    intro tag hkind
    refine ⟨hkey tag hkind ▸ scriptKey?_eq_none_iff, fun hnameless hdata => ?_⟩
    -- A payload without a name opens with none of the list.
    rw [← Bool.not_eq_false, hscript tag hkind]
    rintro (hoff | ⟨name, -, hopens⟩)
    · simp [hdata] at hoff
    · rw [← scriptKey?_eq_none_iff, hopens.scriptKey?_eq] at hnameless
      cases hnameless
  case key_of_named =>
    exact fun name rest hsize => (opensWith_namedPayload hsize rest).scriptKey?_eq
  case named_rejected =>
    intro tag name rest hkind hpayload hsize hlisted
    rw [hscript tag hkind, hpayload]
    exact .inr ⟨name, hlisted, opensWith_namedPayload hsize rest⟩
  case audio =>
    intro tag hkind
    rw [hfilter]
    simp [Tag.frame, hkind, StreamFilter.allows, Frame.audio, Endpoint.ofConfig,
      StreamFilter.ofConfig]
  case video =>
    intro tag hkind
    rw [hfilter]
    simp [Tag.frame, hkind, StreamFilter.allows, Frame.video, Endpoint.ofConfig,
      StreamFilter.ofConfig]
  case foreign =>
    intro tag hforeign
    simp only [Tag.IsForeign, List.mem_cons, List.not_mem_nil, or_false, not_or] at hforeign
    simp [Tag.frame, hforeign, StreamFilter.allows, Frame.raw]

/-- A name of two bytes for one letter is found in front of other bytes, and no name where the
length points beyond the end. -/
example :
    let filter : StreamFilter := { blacklist := ["é"] }
    let judge (payload : List UInt8) : Bool :=
      filter.allows (.data 0 (scriptKey? payload.toByteArray) payload.toByteArray)
    judge [2, 0, 2, 0xC3, 0xA9, 9] = false ∧ judge [2, 0, 3, 0xC3, 0xA9] = true := by
  decide +kernel

end LiveRelay
