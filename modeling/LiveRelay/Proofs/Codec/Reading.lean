import LiveRelay.Proofs.Codec.Grammar

/-! # What a stream reads as

By the grammar alone every stream reads as some frames, perhaps a fault, and the bytes that
are left (`Reads`). A reader gets exactly that, in however many pieces the stream comes to it.
-/

namespace LiveRelay.Flv

open LinkCodec (joined)

/-- The stream stands for these frames, and `rest` is what they leave of it. Where the header
is faulty, nothing is taken. -/
inductive Reads (stream : ByteArray) : List Frame → Option StreamFault → ByteArray → Prop
  | parsed {tags : List Tag} {tail : ByteArray} (h : Parses stream tags tail) :
      Reads stream (tags.map Tag.frame) none tail
  | faulty {fault : StreamFault} (h : HeaderFault stream fault) :
      Reads stream [] (some fault) stream

theorem exists_reads (stream : ByteArray) :
    ∃ frames fault? rest, Reads stream frames fault? rest := by
  obtain ⟨tags, tail, hparses⟩ | ⟨fault, hfault⟩ := parses_or_headerFault stream
  · exact ⟨_, _, _, .parsed hparses⟩
  · exact ⟨_, _, _, .faulty hfault⟩

theorem Reads.drain_eq {stream rest : ByteArray} {frames : List Frame}
    {fault? : Option StreamFault} (h : Reads stream frames fault? rest) :
    ∃ codec, (LinkCodec.fresh .flv).drain stream =
      ⟨frames, fault?.map .invalid, codec, rest⟩ := by
  cases h with
  | parsed h => exact drain_of_parses h
  | faulty h => exact ⟨_, drain_of_headerFault h⟩

/-- A stream reads as what a codec that has all of it gets. -/
theorem reads_iff_drain {stream rest : ByteArray} {frames : List Frame}
    {fault? : Option StreamFault} :
    Reads stream frames fault? rest ↔
      ((LinkCodec.fresh .flv).drain stream).frames = frames ∧
        ((LinkCodec.fresh .flv).drain stream).error? = fault?.map .invalid ∧
        ((LinkCodec.fresh .flv).drain stream).buffer = rest := by
  constructor
  · intro h
    obtain ⟨codec, hdrain⟩ := h.drain_eq
    rw [hdrain]
    exact ⟨rfl, rfl, rfl⟩
  · rintro ⟨rfl, herror, rfl⟩
    obtain ⟨frames', fault?', rest', hreads⟩ := exists_reads stream
    obtain ⟨codec, hdrain⟩ := hreads.drain_eq
    rw [hdrain] at herror ⊢
    have hinjective : Function.Injective CodecError.invalid := fun _ _ h => by cases h; rfl
    rw [← Option.map_injective hinjective herror]
    exact hreads

/-- A faulty stream has no frames. -/
theorem Reads.frames_eq_nil {stream rest : ByteArray} {frames : List Frame}
    {fault : StreamFault} (h : Reads stream frames (some fault) rest) : frames = [] := by
  cases h
  rfl

/-- A reader that stops at an error has the frames that all of the stream reads as. -/
theorem reads_feed (chunks : List ByteArray) :
    ∃ (fault? : Option StreamFault) (rest : ByteArray),
      Reads (joined chunks) ((LinkCodec.fresh .flv).feed chunks).frames fault? rest ∧
        ((LinkCodec.fresh .flv).feed chunks).error? = fault?.map .invalid := by
  obtain ⟨unread, -, -, hdrain⟩ := LinkCodec.drain_joined {} chunks
  obtain ⟨frames, fault?, rest, hreads⟩ := exists_reads (joined chunks)
  obtain ⟨rfl, herror, -⟩ := reads_iff_drain.mp hreads
  rw [LinkCodec.fresh, hdrain] at hreads herror
  exact ⟨fault?, rest, hreads, herror⟩

/-- However a stream is cut, and whether or not it is read on behind an error, the frames
and the first error are those that it reads as. The bytes that are left are the same ones,
as long as they were all looked at. -/
theorem pieces_read (chunks : List ByteArray) :
    let read := (LinkCodec.fresh .flv).feedOn chunks
    let stopped := (LinkCodec.fresh .flv).feed chunks
    (∀ (frames : List Frame) (fault? : Option StreamFault) (rest : ByteArray),
        Reads (joined chunks) frames fault? rest ↔
        read.frames = frames ∧ read.error? = fault?.map .invalid ∧ read.buffer = rest) ∧
      (∃ fault? : Option StreamFault, read.error? = fault?.map .invalid) ∧
      stopped.frames = read.frames ∧ stopped.error? = read.error? ∧
      ∃ unread, unread <:+ chunks ∧ (stopped.error? = none → unread = []) ∧
        read.buffer = stopped.buffer ++ joined unread := by
  intro read stopped
  have hread : read = (LinkCodec.fresh .flv).drain (joined chunks) :=
    LinkCodec.feedOn_eq_drain {} chunks
  obtain ⟨unread, hsuffix, hall, hstopped⟩ := LinkCodec.drain_joined {} chunks
  have hpart : read = { stopped with buffer := stopped.buffer ++ joined unread } :=
    hread.trans hstopped
  constructor
  case left =>
    intro frames fault? rest
    rw [hread]
    exact reads_iff_drain
  case right =>
    refine ⟨?_, ?_, ?_, unread, hsuffix, hall, ?_⟩
    · obtain ⟨frames, fault?, rest, hreads⟩ := exists_reads (joined chunks)
      rw [hread]
      exact ⟨fault?, (reads_iff_drain.mp hreads).2.1⟩
    all_goals rw [hpart]

end LiveRelay.Flv
