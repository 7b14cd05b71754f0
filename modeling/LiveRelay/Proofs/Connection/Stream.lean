import LiveRelay.Proofs.Codec.RoundTrip
import LiveRelay.Proofs.Connection.Link

/-! # What a link carries

A source publishes what the pieces that it has read come to (`IsFed`), and what a link of a
sink has taken, with what is still to be written, are the frames of the sink one behind the
other (`Await.Sends`). Both are kept by whatever one step does with a link.
-/

namespace LiveRelay

open LinkCodec

namespace Await

/-- Sources read from their links, and sinks do not publish anything. -/
def Fits : FramePath → Await → Prop
  | .publish, .reading _ _ => True
  | .deliver _, .watching _ => True
  | .deliver _, .writing _ _ _ _ => True
  | _, _ => False

/-- A source waits for more, after it has read these pieces and published these frames. -/
def Feeds (kind : CodecKind) (pieces : List ByteArray) (published : List Frame) : Await → Prop
  | .reading codec pending => (fresh kind).feed pieces = ⟨published, none, codec, pending⟩
  | _ => False

/-- A sink has written these frames to the end, and the link has taken these bytes: all of the
written frames, and a part of the one that is being written. -/
def Sends (kind : CodecKind) (written : List Frame) (sent : ByteArray) : Await → Prop
  | .watching codec => encodeAll (fresh kind) written = ⟨.ok (), codec, sent⟩
  | .writing codec frame size rest => ∃ earlier done part,
      encodeAll (fresh kind) written = ⟨.ok (), earlier, done⟩ ∧
        earlier.encode frame .empty = ⟨.ok (), codec, part ++ rest⟩ ∧
        sent = done ++ part ∧ size = (part ++ rest).size
  | _ => False

theorem fits_opening (kind : CodecKind) (framePath : FramePath) :
    (opening kind framePath).Fits framePath := by
  cases framePath <;> trivial

theorem fits_ofWrite (sink : Nat) (codec : LinkCodec) (frame : Frame) (size : Nat)
    (rest : ByteArray) : (ofWrite codec frame size rest).Fits (.deliver sink) := by
  unfold ofWrite
  split_ifs <;> trivial

theorem fits_ofSend (sink : Nat) (codec : LinkCodec) (frame : Frame) :
    (ofSend codec frame).Fits (.deliver sink) := by
  unfold ofSend
  simp only []
  split
  next => trivial
  next => exact fits_ofWrite _ _ _ _ _

theorem sends_ofWrite {kind : CodecKind} {written : List Frame} {earlier codec : LinkCodec}
    {frame : Frame} {done part rest : ByteArray}
    (hdone : encodeAll (fresh kind) written = ⟨.ok (), earlier, done⟩)
    (hencode : earlier.encode frame .empty = ⟨.ok (), codec, part ++ rest⟩) :
    (ofWrite codec frame (part ++ rest).size rest).Sends kind
      (written ++ if rest.isEmpty then [frame] else []) (done ++ part) := by
  unfold ofWrite
  split_ifs with hempty
  · obtain rfl : rest = .empty := by simpa [ByteArray.isEmpty] using hempty
    rw [Sends, encodeAll_append_of_encode hdone hencode, ByteArray.append_empty]
  · rw [List.append_nil]
    exact ⟨earlier, done, part, hdone, hencode, rfl, rfl⟩

end Await

/-- What a source has published is what it has read, if that came over one link. -/
structure IsFed (kind : CodecKind) (traffic : Traffic) (published : List Frame)
    (link : Option Await) : Prop where
  published_eq : published = ((fresh kind).feed traffic.read).frames
  unopened : traffic.opened = 0 → traffic.read = [] ∧ link = none
  feeds : ∀ await ∈ link, await.Feeds kind traffic.read published

namespace Flow

variable {kind : CodecKind} {framePath : FramePath} {fanOut : FanOut} {link later : Option Await}
  {traffic : Traffic} {handling : Handling}

theorem fits (h : Flow kind framePath fanOut link traffic handling later)
    (hfits : ∀ await ∈ link, await.Fits framePath) : ∀ await ∈ later, await.Fits framePath := by
  intro await hawait
  cases h with
  | rests => exact hfits await hawait
  | opens =>
      obtain rfl := Option.some.inj hawait
      exact Await.fits_opening kind framePath
  | ends => cases hawait
  | breaks => cases hawait
  | reads herror =>
      obtain rfl := Option.some.inj hawait
      have hreading := hfits _ rfl
      cases framePath with
      | publish => trivial
      | deliver sink => exact hreading.elim
  | takes hpath hpop =>
      obtain rfl := Option.some.inj hawait
      rw [hpath]
      exact Await.fits_ofSend _ _ _
  | writes hleft =>
      obtain rfl := Option.some.inj hawait
      have hwriting := hfits _ rfl
      cases framePath with
      | publish => exact hwriting.elim
      | deliver sink => exact Await.fits_ofWrite _ _ _ _ _

/-- A sink publishes nothing. -/
theorem published_eq_nil {sink : Nat}
    (h : Flow kind (.deliver sink) fanOut link traffic handling later)
    (hfits : ∀ await ∈ link, await.Fits (.deliver sink)) : handling.published = [] := by
  cases h with
  | rests => rfl
  | opens => rfl
  | ends => rfl
  | reads => exact (hfits _ rfl).elim
  | breaks => exact (hfits _ rfl).elim
  | takes => exact Handling.published_ofSend _ _
  | writes => rfl

/-- A source goes on publishing what it reads. -/
theorem isFed {earlier : Traffic} {published : List Frame}
    (h : Flow kind .publish fanOut link traffic handling later)
    (hfed : IsFed kind earlier published link) (hone : (earlier ++ traffic).opened ≤ 1) :
    IsFed kind (earlier ++ traffic) (published ++ handling.published) later := by
  have hread : ∀ (codec : LinkCodec) (pending data : ByteArray),
      (fresh kind).feed earlier.read = ⟨published, none, codec, pending⟩ →
      (fresh kind).feed (earlier.read ++ [data]) =
        ⟨published ++ (codec.drain (pending ++ data)).frames,
          (codec.drain (pending ++ data)).error?, (codec.drain (pending ++ data)).codec,
          (codec.drain (pending ++ data)).buffer⟩ := by
    intro codec pending data hfeed
    rw [feed_append_singleton, hfeed]
    rfl
  cases h with
  | rests =>
      rw [Traffic.append_nil, List.append_nil]
      exact hfed
  | opens =>
      -- It is the first link that comes up, so nothing has been read so far.
      have hzero : earlier.opened = 0 := by
        rw [Traffic.opened_append] at hone
        exact Nat.le_zero.mp (Nat.le_of_succ_le_succ hone)
      have hnone := (hfed.unopened hzero).1
      have hpublished := hfed.published_eq
      rw [hnone] at hpublished
      constructor
      case published_eq => simp [hnone, hpublished]
      case unopened => simp
      case feeds =>
        intro await hawait
        obtain rfl := Option.some.inj hawait
        simp only [Await.opening, Await.Feeds, Traffic.read_append, hnone, hpublished]
        rfl
  | ends =>
      simp only [Traffic.append_nil, List.append_nil]
      refine ⟨hfed.published_eq, fun hzero => ⟨(hfed.unopened hzero).1, rfl⟩, ?_⟩
      intro await hawait
      cases hawait
  | @reads codec pending data herror =>
      have hfeed := hread codec pending data (hfed.feeds _ rfl)
      constructor
      case published_eq => rw [Traffic.read_append, hfeed]
      case unopened =>
        intro hzero
        cases (hfed.unopened hzero).2
      case feeds =>
        intro await hawait
        obtain rfl := Option.some.inj hawait
        rw [Await.Feeds, Traffic.read_append, hfeed, herror]
  | @breaks codec pending data =>
      constructor
      case published_eq => rw [Traffic.read_append, hread codec pending data (hfed.feeds _ rfl)]
      case unopened =>
        intro hzero
        cases (hfed.unopened hzero).2
      case feeds =>
        intro await hawait
        cases hawait
  | takes hpath => cases hpath
  | writes => exact (hfed.feeds _ rfl).elim

/-- As long as its link stays up a sink goes on sending frames one behind the other, and
loses none. One that it cannot write leaves no trace. -/
theorem sends {sink : Nat} {before : Await} {written : List Frame} {sent : ByteArray}
    (h : Flow kind (.deliver sink) fanOut (some before) traffic handling later)
    (hsends : before.Sends kind written sent) :
    ∀ after ∈ later, after.Sends kind (written ++ handling.written) (sent ++ traffic.sent) ∧
      handling.lost = [] ∧ handling.interrupted = [] := by
  intro after hafter
  cases h with
  | rests =>
      obtain rfl := Option.some.inj hafter
      rw [List.append_nil, ByteArray.append_empty]
      exact ⟨hsends, rfl, rfl⟩
  | ends => cases hafter
  | reads => exact hsends.elim
  | breaks => exact hsends.elim
  | @takes codec _ frame =>
      obtain rfl := Option.some.inj hafter
      have hdone : encodeAll (fresh kind) written = ⟨.ok (), codec, sent⟩ := hsends
      simp only [ByteArray.append_empty, Handling.ofSend, Await.ofSend]
      rcases codec.encode_cases frame .empty with
        ⟨-, next, bytes, hencode⟩ | ⟨-, error, herror⟩
      · rw [← ByteArray.empty_append (b := bytes)] at hencode
        have hnext := Await.sends_ofWrite hdone hencode
        simp only [hencode, ByteArray.empty_append, ByteArray.append_empty] at hnext ⊢
        exact ⟨hnext, trivial, trivial⟩
      · simp only [herror, List.append_nil]
        exact ⟨hdone, trivial, trivial⟩
  | @writes codec frame size taken rest _ hleft =>
      obtain rfl := Option.some.inj hafter
      subst hleft
      obtain ⟨earlier, done, part, hdone, hencode, rfl, rfl⟩ := hsends
      have hsplit :
          part ++ rest.extract 0 taken ++ rest.extract taken rest.size = part ++ rest := by
        rw [ByteArray.append_assoc, ByteArray.extract_append_extract, Nat.zero_min,
          ByteArray.extract_zero_max_size]
      have hsent :
          done ++ part ++ rest.extract 0 taken = done ++ (part ++ rest.extract 0 taken) :=
        ByteArray.append_assoc
      rw [hsent]
      rw [← hsplit] at hencode ⊢
      exact ⟨Await.sends_ofWrite hdone hencode, rfl, rfl⟩

end Flow

end LiveRelay
