import LiveRelay.Proofs.Codec.Backlog
import LiveRelay.Proofs.Connection.Links

/-! # How much a source keeps

A source drains its buffer after every read, so between two reads it only keeps what its codec
waits to be completed. Whatever its peer sends, that is less than the largest tag, and at its
fullest the buffer holds one read more.
-/

namespace LiveRelay

open LinkCodec

/-- A source that waits for bytes keeps no more than its codec waits to be completed. -/
def Await.KeepsLittle : Await → Prop
  | .reading codec pending => pending.size ≤ codec.longestWait
  | _ => True

namespace Await

theorem keepsLittle_opening (kind : CodecKind) (framePath : FramePath) :
    (opening kind framePath).KeepsLittle := by
  cases framePath with
  | publish => exact Nat.zero_le _
  | deliver sink => trivial

theorem keepsLittle_ofWrite (codec : LinkCodec) (frame : Frame) (size : Nat) (rest : ByteArray) :
    (ofWrite codec frame size rest).KeepsLittle := by
  unfold ofWrite
  split_ifs <;> trivial

theorem keepsLittle_ofSend (codec : LinkCodec) (frame : Frame) :
    (ofSend codec frame).KeepsLittle := by
  unfold ofSend
  simp only []
  split
  next => trivial
  next => exact keepsLittle_ofWrite _ _ _ _

end Await

/-- What goes over a link does not pile up. -/
theorem Flow.keepsLittle {kind : CodecKind} {framePath : FramePath} {fanOut : FanOut}
    {link later : Option Await} {traffic : Traffic} {handling : Handling}
    (h : Flow kind framePath fanOut link traffic handling later)
    (hlink : ∀ await ∈ link, await.KeepsLittle) : ∀ await ∈ later, await.KeepsLittle := by
  intro await hawait
  cases h with
  | rests => exact hlink await hawait
  | opens =>
      obtain rfl := Option.some.inj hawait
      exact Await.keepsLittle_opening kind framePath
  | ends => cases hawait
  | breaks => cases hawait
  | reads herror =>
      obtain rfl := Option.some.inj hawait
      exact size_of_drained herror
  | takes =>
      obtain rfl := Option.some.inj hawait
      exact Await.keepsLittle_ofSend _ _
  | writes =>
      obtain rfl := Option.some.inj hawait
      exact Await.keepsLittle_ofWrite _ _ _ _

/-- In one step there is one read at most. -/
theorem Step.size_read_le {step : Step} {limit : Nat}
    (h : ∀ data ∈ step.traffic.read, data.size ≤ limit) :
    (joined step.traffic.read).size ≤ limit := by
  have hflow := step.flows
  generalize step.before.life.link? = before at hflow
  generalize step.after.life.link? = after at hflow
  generalize step.handling = handling at hflow
  generalize step.traffic = traffic at hflow h ⊢
  cases hflow with
  | reads =>
      rw [joined_singleton]
      exact h _ List.mem_cons_self
  | breaks =>
      rw [joined_singleton]
      exact h _ List.mem_cons_self
  | _ => exact Nat.zero_le _

theorem LinkCodec.longestWait_le (codec : LinkCodec) : codec.longestWait ≤ 16777229 := by
  unfold longestWait
  split <;> omega

namespace Connection

/-- What a source has in its buffer, between two reads and when it has just read. -/
structure HoldsLittle (connection : Connection) (occasions : List Occasion) : Prop where
  /-- Between two reads it has what its codec waits to be completed, -/
  waits : ∀ codec pending,
    (connection.afterAll occasions).life.link? = some (.reading codec pending) →
    pending.size ≤ codec.longestWait ∧ codec.longestWait ≤ 16777229
  /-- and before it decodes it has one read more. -/
  reads : ∀ limit,
    (∀ step ∈ connection.history occasions, ∀ data ∈ step.traffic.read, data.size ≤ limit) →
    ∀ step ∈ connection.history occasions, ∀ codec pending,
      step.before.life.link? = some (.reading codec pending) →
      (pending ++ joined step.traffic.read).size ≤ codec.longestWait + limit

theorem afterAll_keepsLittle {connection : Connection}
    (h : ∀ await ∈ connection.life.link?, await.KeepsLittle) (occasions : List Occasion) :
    ∀ await ∈ (connection.afterAll occasions).life.link?, await.KeepsLittle := by
  apply afterAll_induction (motive := fun later => ∀ await ∈ later.life.link?, await.KeepsLittle) h
  intro step hbefore
  exact step.flows.keepsLittle hbefore

theorem holdsLittle {connection : Connection}
    (h : ∀ await ∈ connection.life.link?, await.KeepsLittle) (occasions : List Occasion) :
    connection.HoldsLittle occasions := by
  constructor
  case waits =>
    intro codec pending hlink
    exact ⟨afterAll_keepsLittle h occasions _ hlink, codec.longestWait_le⟩
  case reads =>
    intro limit hlimit step hstep codec pending hlink
    obtain ⟨first, hbefore⟩ := before_eq_afterAll hstep
    rw [hbefore] at hlink
    rw [ByteArray.size_append]
    exact Nat.add_le_add (afterAll_keepsLittle h first _ hlink)
      (Step.size_read_le (hlimit step hstep))

end Connection

/-- Decoding makes progress with every frame and leaves nothing that is complete, so a source
keeps less than a tag of whatever it is sent. -/
theorem decoding_isBounded :
    (∀ (codec : LinkCodec) (buffer : ByteArray), codec.KeepsLittle buffer) ∧
      ∀ (parent : ComponentPath) (config : ConnectionConfig) (occasions : List Occasion),
        (Connection.ofConfig parent config .publish).HoldsLittle occasions := by
  refine ⟨keepsLittle, fun parent config occasions => ?_⟩
  apply Connection.holdsLittle
  intro await hawait
  cases hawait

end LiveRelay
