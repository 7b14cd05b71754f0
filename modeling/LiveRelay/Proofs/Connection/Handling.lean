import LiveRelay.Proofs.Codec.Encodable
import LiveRelay.Proofs.Connection.Course
import LiveRelay.Proofs.Endpoint.FanOut

/-! # What a connection does with frames

A source publishes what it decodes, and a sink takes a frame from its queue, has it in hand
while it is being written, and settles it. `act_handled` says that the fan-out and the
counters agree with this account of a step.
-/

namespace LiveRelay

/-- The frame that a sink has taken from its queue and is writing. -/
def Life.inHand : Life → List Frame
  | .running _ (.writing _ frame _ _) => [frame]
  | _ => []

/-- What a step of a connection does with frames. -/
structure Handling where
  /-- Offered to the fan-out, in this order. -/
  published : List Frame := []
  /-- Taken from the queue. -/
  taken : List Frame := []
  /-- Written to the end. -/
  written : List Frame := []
  /-- Given up because the link failed. -/
  lost : List Frame := []
  /-- Given up because the run was cancelled. -/
  interrupted : List Frame := []
  /-- Given up because they cannot be encoded. -/
  skipped : List Frame := []

namespace Handling

/-- A frame that has been taken is encoded. When that comes to no bytes at all, it is written
already. -/
def ofSend (codec : LinkCodec) (frame : Frame) : Handling :=
  let encoding := codec.encode frame .empty
  match encoding.result with
  | .error _ => { taken := [frame], skipped := [frame] }
  | .ok () =>
      { taken := [frame], written := if encoding.output.isEmpty then [frame] else [] }

/-- The link has taken bytes of a frame, or has failed. -/
def ofWrote (frame : Frame) (rest : ByteArray) : Except String Nat → Handling
  | .error _ => { lost := [frame] }
  | .ok 0 => { lost := [frame] }
  | .ok taken => { written := if (rest.extract taken rest.size).isEmpty then [frame] else [] }

end Handling

namespace Handling

variable (codec : LinkCodec) (frame : Frame) (rest : ByteArray) (outcome : Except String Nat)

@[simp] theorem published_ofSend : (ofSend codec frame).published = [] := by
  unfold ofSend
  simp only []
  split <;> rfl

@[simp] theorem interrupted_ofSend : (ofSend codec frame).interrupted = [] := by
  unfold ofSend
  simp only []
  split <;> rfl

theorem skipped_ofSend (h : frame.IsEncodable) : (ofSend codec frame).skipped = [] := by
  unfold ofSend
  simp only [codec.encode_isEncodable h]

@[simp] theorem published_ofWrote : (ofWrote frame rest outcome).published = [] := by
  unfold ofWrote
  split <;> rfl

@[simp] theorem interrupted_ofWrote : (ofWrote frame rest outcome).interrupted = [] := by
  unfold ofWrote
  split <;> rfl

@[simp] theorem skipped_ofWrote : (ofWrote frame rest outcome).skipped = [] := by
  unfold ofWrote
  split <;> rfl

end Handling

/-- What comes of a signal for a connection that waits for this. -/
def Await.handling (framePath : FramePath) (fanOut : FanOut) : Await → Signal → Handling
  | .reading codec pending, .received (.ok data) =>
      if data.isEmpty then {} else { published := (codec.drain (pending ++ data)).frames }
  | .watching codec, .woken =>
      match framePath with
      | .publish => {}
      | .deliver sink =>
          match (fanOut.pop sink).1 with
          | .frame frame => .ofSend codec frame
          | _ => {}
  | .writing _ frame _ rest, .wrote outcome => .ofWrote frame rest outcome
  | _, _ => {}

namespace Await

variable (framePath : FramePath) (fanOut : FanOut) (await : Await) (signal : Signal)

theorem interrupted_handling : (await.handling framePath fanOut signal).interrupted = [] := by
  unfold handling
  split
  next => split_ifs <;> rfl
  next =>
    split
    next => rfl
    next => split <;> simp
  next => simp
  next => rfl

theorem published_handling :
    ∀ frame ∈ (await.handling framePath fanOut signal).published, frame.IsEncodable := by
  unfold handling
  split
  next codec pending data =>
    split_ifs
    · nofun
    · exact codec.drain_isEncodable _
  next =>
    split
    next => nofun
    next => split <;> simp
  next => simp
  next => nofun

theorem skipped_handling
    (h : ∀ queue ∈ fanOut.sinks, ∀ frame ∈ queue.frames, frame.IsEncodable) :
    (await.handling framePath fanOut signal).skipped = [] := by
  unfold handling
  split
  next => split_ifs <;> rfl
  next codec =>
    split
    next => rfl
    next sink =>
      split
      next frame hpop =>
        -- The frame that is taken was in the queue.
        apply Handling.skipped_ofSend
        obtain ⟨queue, popped, hqueue, hpopped, -⟩ := FanOut.eq_of_pop (Prod.ext hpop rfl)
        apply h queue (List.mem_of_getElem? hqueue)
        rw [(SinkQueue.eq_of_pop hpopped).1]
        exact List.mem_cons_self
      next => rfl
  next => simp
  next => rfl

end Await

/-- What a connection does with frames in this act. -/
def Connection.handling (connection : Connection) (fanOut : FanOut) (act : Act) : Handling :=
  match connection.life, act with
  | .running _ await, .poll false signal => await.handling connection.framePath fanOut signal
  | .running run await, .poll true _ => { interrupted := (Life.running run await).inHand }
  | _, _ => {}

namespace Turn

/-- From `before` to `after` nothing has happened to any frame. -/
structure Keeps (before after : Turn) : Prop where
  fanOut_eq : after.fanOut = before.fanOut
  framesSent_eq : after.connection.stats.framesSent = before.connection.stats.framesSent
  framesLost_eq : after.connection.stats.framesLost = before.connection.stats.framesLost

/-- Nothing has happened to any frame, and the connection has none in hand. -/
structure Settles (before after : Turn) : Prop extends Keeps before after where
  inHand_eq : after.connection.life.inHand = []

theorem Keeps.trans {before middle after : Turn} (first : Keeps before middle)
    (second : Keeps middle after) : Keeps before after where
  fanOut_eq := second.fanOut_eq.trans first.fanOut_eq
  framesSent_eq := second.framesSent_eq.trans first.framesSent_eq
  framesLost_eq := second.framesLost_eq.trans first.framesLost_eq

theorem Keeps.settles {before middle after : Turn} (first : Keeps before middle)
    (second : Settles middle after) : Settles before after :=
  { first.trans second.toKeeps with inHand_eq := second.inHand_eq }

theorem emit_keeps (turn : Turn) (kind : EventKind) : Keeps turn (turn.emit kind) := by
  constructor <;> rfl

theorem request_keeps (turn : Turn) (request : Request) : Keeps turn (turn.request request) := by
  constructor <;> rfl

theorem transition_keeps (turn : Turn) (target : ConnectionState) (attempt : Nat)
    (failure : Option ConnectionError) : Keeps turn (turn.transition target attempt failure) := by
  constructor <;> rfl

theorem reportDrops_keeps (turn : Turn) : Keeps turn turn.reportDrops := by
  unfold reportDrops
  split
  next => constructor <;> rfl
  next =>
    simp only []
    split_ifs <;> constructor <;> rfl

theorem leaveLink_keeps (turn : Turn) : Keeps turn turn.leaveLink :=
  turn.reportDrops_keeps.trans (request_keeps _ _)

theorem finish_settles (turn : Turn) (run : Run) (cancelled : Bool)
    (failure : Option ConnectionError) : Settles turn (turn.finish run cancelled failure) := by
  unfold finish
  cases cancelled <;> cases run.listening <;> repeat' constructor

theorem suspend_settles (turn : Turn) {run : Run} {await : Await}
    (h : (Life.running run await).inHand = []) : Settles turn (turn.suspend run await) where
  fanOut_eq := rfl
  framesSent_eq := rfl
  framesLost_eq := rfl
  inHand_eq := h

theorem seekLink_settles (turn : Turn) (run : Run) : Settles turn (turn.seekLink run) := by
  unfold seekLink
  split
  next => exact (request_keeps _ _).settles (suspend_settles _ rfl)
  next =>
    split_ifs
    · exact (request_keeps _ _).settles (suspend_settles _ rfl)
    · exact (request_keeps _ _).settles (suspend_settles _ rfl)

theorem establish_settles (turn : Turn) (run : Run) : Settles turn (turn.establish run) :=
  (transition_keeps _ _ _ _).settles (seekLink_settles _ run)

theorem retry_settles (turn : Turn) (run : Run) (failure : ConnectionError) :
    Settles turn (turn.retry run failure) := by
  unfold retry
  apply (turn.transition_keeps .reconnecting run.budget.used (some failure)).settles
  split
  next => exact finish_settles _ _ _ _
  next => exact (request_keeps _ _).settles (suspend_settles _ rfl)

theorem loseLink_settles (turn : Turn) (run : Run) (failure : ConnectionError) :
    Settles turn (turn.loseLink run failure) := by
  unfold loseLink
  apply turn.leaveLink_keeps.settles
  simp only []
  split_ifs
  · exact finish_settles _ _ _ _
  · exact retry_settles _ _ _

theorem read_settles (turn : Turn) (run : Run) (codec : LinkCodec) (pending : ByteArray) :
    Settles turn (turn.read run codec pending) :=
  (request_keeps _ _).settles (suspend_settles _ rfl)

theorem watch_settles (turn : Turn) (run : Run) (codec : LinkCodec) :
    Settles turn (turn.watch run codec) :=
  (request_keeps _ _).settles (suspend_settles _ rfl)

theorem linkUp_settles (turn : Turn) (run : Run) : Settles turn (turn.linkUp run) := by
  have hcounted : Keeps turn ((turn.count (·.addLink)).transition .active 0 none) := by
    constructor <;> rfl
  unfold linkUp
  apply hcounted.settles
  simp only []
  split
  next => exact read_settles _ _ _ _
  next => exact watch_settles _ _ _

theorem attempted_settles (turn : Turn) (run : Run) (outcome : Except String Unit) :
    Settles turn (turn.attempted run outcome) := by
  cases outcome with
  | error cause => exact retry_settles _ _ _
  | ok _ => exact linkUp_settles _ _

theorem bound_settles (turn : Turn) (run : Run) (outcome : Except String (Option SocketAddress)) :
    Settles turn (turn.bound run outcome) := by
  cases outcome with
  | error cause => exact retry_settles _ _ _
  | ok localAddress =>
      cases localAddress with
      | none => exact seekLink_settles _ _
      | some address =>
          refine Keeps.settles ?_ (seekLink_settles _ _)
          constructor <;> rfl

/-- From `before` to `after` these frames have been published, and no frame was settled. -/
structure Publishes (before : Turn) (frames : List Frame) (after : Turn) : Prop where
  fanOut_eq : after.fanOut = before.fanOut.publishAll frames
  framesSent_eq : after.connection.stats.framesSent = before.connection.stats.framesSent
  framesLost_eq : after.connection.stats.framesLost = before.connection.stats.framesLost

theorem publish_publishes (turn : Turn) (frame : Frame) :
    Publishes turn [frame] (turn.publish frame) := by
  unfold publish
  simp only []
  split_ifs <;> constructor <;> rfl

theorem foldl_publish_publishes (frames : List Frame) (turn : Turn) :
    Publishes turn frames (frames.foldl publish turn) := by
  induction frames generalizing turn with
  | nil => constructor <;> rfl
  | cons frame frames ih =>
      have hfirst := turn.publish_publishes frame
      have hrest := ih (turn.publish frame)
      constructor
      · rw [List.foldl_cons, hrest.fanOut_eq, hfirst.fanOut_eq]
        rfl
      · exact hrest.framesSent_eq.trans hfirst.framesSent_eq
      · exact hrest.framesLost_eq.trans hfirst.framesLost_eq

/-- From `before` to `after` a frame that was in hand has been written to the end, if it is
among `written`, and otherwise it still is in hand. -/
structure Writes (before : Turn) (frame : Frame) (written : List Frame) (after : Turn) :
    Prop where
  fanOut_eq : after.fanOut = before.fanOut
  framesSent_eq : after.connection.stats.framesSent =
    before.connection.stats.framesSent + written.length
  framesLost_eq : after.connection.stats.framesLost = before.connection.stats.framesLost
  inHand_eq : [frame] = written ++ after.connection.life.inHand

theorem write_writes (turn : Turn) (run : Run) (codec : LinkCodec) (frame : Frame) (size : Nat)
    (rest : ByteArray) :
    Writes turn frame (if rest.isEmpty then [frame] else [])
      (turn.write run codec frame size rest) := by
  unfold write
  split_ifs <;> constructor <;> rfl

theorem cancel_settles (turn : Turn) (run : Run) (await : Await) :
    Settles turn (turn.cancel run await) := by
  unfold cancel
  simp only []
  split_ifs
  · exact turn.leaveLink_keeps.settles (finish_settles _ _ _ _)
  · exact finish_settles _ _ _ _

end Turn

/-- A step does with frames what the account of it says. -/
structure Connection.Handled (connection : Connection) (fanOut : FanOut) (handling : Handling)
    (turn : Turn) : Prop where
  fanOut_eq :
    (handling.taken = [] ∧ turn.fanOut = fanOut.publishAll handling.published) ∨
      (handling.published = [] ∧ ∃ sink frame, connection.framePath = .deliver sink ∧
        handling.taken = [frame] ∧ fanOut.pop sink = (.frame frame, turn.fanOut))
  framesSent_eq : turn.connection.stats.framesSent =
    connection.stats.framesSent + handling.written.length
  framesLost_eq : turn.connection.stats.framesLost =
    connection.stats.framesLost + handling.lost.length
  /-- Every frame that was in hand or has been taken is settled in one way, or is in hand. -/
  inHand_eq : connection.life.inHand ++ handling.taken =
    handling.written ++ handling.lost ++ handling.interrupted ++ handling.skipped ++
      turn.connection.life.inHand

namespace Connection

variable {connection : Connection} {fanOut : FanOut} {turn : Turn} {run : Run} {await : Await}

theorem handled_of_settles (hnone : connection.life.inHand = [])
    (h : Turn.Settles { connection, fanOut } turn) : connection.Handled fanOut {} turn where
  fanOut_eq := .inl ⟨rfl, h.fanOut_eq⟩
  framesSent_eq := h.framesSent_eq
  framesLost_eq := h.framesLost_eq
  inHand_eq := by simp [hnone, h.inHand_eq]

theorem handled_nothing (connection : Connection) (fanOut : FanOut) :
    connection.Handled fanOut {} { connection, fanOut } := by
  constructor <;> simp [FanOut.publishAll]

theorem start_handled (connection : Connection) (fanOut : FanOut) (token : Token)
    (cancelled : Bool) :
    connection.Handled fanOut {} (connection.start fanOut token cancelled) := by
  unfold start
  split
  next hlife =>
    apply handled_of_settles (by rw [hlife]; rfl)
    apply (Turn.emit_keeps _ .started).settles
    split_ifs
    · exact (Turn.transition_keeps _ _ _ _).settles (Turn.finish_settles _ _ _ _)
    · exact Turn.establish_settles _ _
  next => exact handled_nothing connection fanOut

theorem close_handled (connection : Connection) (fanOut : FanOut) :
    connection.Handled fanOut {} (connection.close fanOut) := by
  unfold close
  split
  next hlife => exact handled_of_settles (by rw [hlife]; rfl) (by repeat' constructor)
  next => constructor <;> simp [FanOut.publishAll]

theorem cancel_handled (connection : Connection) (fanOut : FanOut) (run : Run) (await : Await) :
    connection.Handled fanOut { interrupted := connection.life.inHand }
      (({ connection, fanOut } : Turn).cancel run await) := by
  have h := Turn.cancel_settles { connection, fanOut } run await
  exact ⟨.inl ⟨rfl, h.fanOut_eq⟩, h.framesSent_eq, h.framesLost_eq, by simp [h.inHand_eq]⟩

theorem decode_handled (turn : Turn) (h : Turn.Keeps { connection, fanOut } turn)
    (hnone : connection.life.inHand = []) (run : Run) (codec : LinkCodec) (bytes : ByteArray) :
    connection.Handled fanOut { published := (codec.drain bytes).frames }
      (turn.decode run codec bytes) := by
  have hpublishes := Turn.foldl_publish_publishes (codec.drain bytes).frames turn
  have hafter : Turn.Settles ((codec.drain bytes).frames.foldl Turn.publish turn)
      (turn.decode run codec bytes) := by
    unfold Turn.decode
    simp only []
    split
    next => exact Turn.loseLink_settles _ _ _
    next => exact Turn.read_settles _ _ _ _
  constructor
  · left
    rw [hafter.fanOut_eq, hpublishes.fanOut_eq, h.fanOut_eq]
    exact ⟨rfl, rfl⟩
  · rw [hafter.framesSent_eq, hpublishes.framesSent_eq]
    exact h.framesSent_eq
  · rw [hafter.framesLost_eq, hpublishes.framesLost_eq]
    exact h.framesLost_eq
  · simp [hnone, hafter.inHand_eq]

theorem send_handled {sink : Nat} {rest : FanOut} {frame : Frame}
    (hpath : connection.framePath = .deliver sink) (hpop : fanOut.pop sink = (.frame frame, rest))
    (hnone : connection.life.inHand = []) (codec : LinkCodec)
    (h : Turn.Keeps { connection, fanOut := rest } turn) :
    connection.Handled fanOut (.ofSend codec frame) (turn.send run codec frame) := by
  have htaken : fanOut.pop sink = (.frame frame, turn.fanOut) := by rw [hpop, h.fanOut_eq]
  unfold Turn.send Handling.ofSend
  simp only []
  cases (codec.encode frame .empty).result with
  | error _ =>
      have hwatch := turn.watch_settles run (codec.encode frame .empty).codec
      constructor
      · right
        rw [hwatch.fanOut_eq]
        exact ⟨rfl, sink, frame, hpath, rfl, htaken⟩
      · rw [hwatch.framesSent_eq, h.framesSent_eq]
        rfl
      · rw [hwatch.framesLost_eq, h.framesLost_eq]
        rfl
      · simp [hnone, hwatch.inHand_eq]
  | ok _ =>
      have hwrites := turn.write_writes run (codec.encode frame .empty).codec frame
        (codec.encode frame .empty).output.size (codec.encode frame .empty).output
      constructor
      · right
        rw [hwrites.fanOut_eq]
        exact ⟨rfl, sink, frame, hpath, rfl, htaken⟩
      · rw [hwrites.framesSent_eq, h.framesSent_eq]
      · rw [hwrites.framesLost_eq, h.framesLost_eq]
        rfl
      · simp only [hnone, List.nil_append, List.append_nil]
        exact hwrites.inHand_eq

theorem takeFrame_handled {codec : LinkCodec}
    (hlife : connection.life = .running run (.watching codec)) :
    connection.Handled fanOut
      (Await.handling connection.framePath fanOut (.watching codec) .woken)
      (({ connection, fanOut } : Turn).takeFrame run codec) := by
  have hnone : connection.life.inHand = [] := by
    rw [hlife]
    rfl
  unfold Turn.takeFrame Await.handling
  cases hpath : connection.framePath with
  | publish => exact handled_nothing connection fanOut
  | deliver sink =>
      rcases hpop : fanOut.pop sink with ⟨popped, rest⟩
      simp only [hpop]
      cases popped with
      | pending => exact handled_nothing connection fanOut
      | finished =>
          apply handled_of_settles hnone
          exact (Turn.leaveLink_keeps _).settles (Turn.finish_settles _ _ _ _)
      | frame frame => exact send_handled hpath hpop hnone codec (Turn.reportDrops_keeps _)

theorem wrote_handled {codec : LinkCodec} {frame : Frame} {size : Nat} {rest : ByteArray}
    (hlife : connection.life = .running run (.writing codec frame size rest))
    (outcome : Except String Nat) :
    connection.Handled fanOut (.ofWrote frame rest outcome)
      (({ connection, fanOut } : Turn).wrote run codec frame size rest outcome) := by
  have hhand : connection.life.inHand = [frame] := by
    rw [hlife]
    rfl
  have hlost : ∀ failure, connection.Handled fanOut { lost := [frame] }
      ((({ connection, fanOut } : Turn).count (·.addLost)).loseLink run failure) := by
    intro failure
    have h := Turn.loseLink_settles
      (({ connection, fanOut } : Turn).count (·.addLost)) run failure
    exact ⟨.inl ⟨rfl, h.fanOut_eq⟩, h.framesSent_eq, h.framesLost_eq, by simp [hhand, h.inHand_eq]⟩
  cases outcome with
  | error cause => exact hlost _
  | ok taken =>
      cases taken with
      | zero => exact hlost _
      | succ less =>
          have h := Turn.write_writes { connection, fanOut } run codec frame size
            (rest.extract (less + 1) rest.size)
          unfold Turn.wrote Handling.ofWrote
          simp only []
          constructor
          · exact .inl ⟨rfl, h.fanOut_eq⟩
          · rw [h.framesSent_eq]
          · rw [h.framesLost_eq]
            rfl
          · simp only [hhand, List.append_nil]
            exact h.inHand_eq

theorem resume_handled (hlife : connection.life = .running run await) (signal : Signal) :
    connection.Handled fanOut (await.handling connection.framePath fanOut signal)
      (connection.resume fanOut false signal) := by
  -- Only a connection that writes has a frame in hand.
  have hsettled : ∀ turn, await.hasLink = false ∨ await.reads = true →
      Turn.Settles { connection, fanOut } turn → connection.Handled fanOut {} turn := by
    intro turn hawait
    apply handled_of_settles
    rw [hlife]
    cases await <;> simp_all [Await.hasLink, Await.reads, Life.inHand]
  unfold resume
  simp only [hlife, Bool.false_eq_true, if_false]
  split
  next outcome => exact hsettled _ (.inl rfl) (Turn.attempted_settles _ _ _)
  next => exact hsettled _ (.inl rfl) (Turn.retry_settles _ _ _)
  next outcome => exact hsettled _ (.inl rfl) (Turn.bound_settles _ _ _)
  next outcome => exact hsettled _ (.inl rfl) (Turn.attempted_settles _ _ _)
  next codec pending outcome =>
    cases outcome with
    | error cause => exact hsettled _ (.inr rfl) (Turn.loseLink_settles _ _ _)
    | ok data =>
        simp only [Turn.received, Await.handling]
        split_ifs
        · exact hsettled _ (.inr rfl) (Turn.loseLink_settles _ _ _)
        · exact decode_handled _ (by constructor <;> rfl) (by rw [hlife]; rfl) run codec _
  next codec outcome =>
    cases outcome with
    | error cause => exact hsettled _ (.inr rfl) (Turn.loseLink_settles _ _ _)
    | ok data =>
        simp only [Turn.received]
        split_ifs
        · exact hsettled _ (.inr rfl) (Turn.loseLink_settles _ _ _)
        · apply hsettled _ (.inr rfl)
          exact Turn.Keeps.settles (by constructor <;> rfl) (Turn.watch_settles _ _ _)
  next codec => exact takeFrame_handled hlife
  next codec frame size rest outcome => exact wrote_handled hlife outcome
  next => exact hsettled _ (.inl rfl) (Turn.establish_settles _ _)
  next =>
    have hnothing : await.handling connection.framePath fanOut signal = {} := by
      unfold Await.handling
      split <;> grind
    rw [hnothing]
    exact handled_nothing connection fanOut

/-- What comes of an act is what its account says. -/
theorem act_handled (connection : Connection) (fanOut : FanOut) (act : Act) :
    connection.Handled fanOut (connection.handling fanOut act) (connection.act fanOut act) := by
  unfold handling
  cases act with
  | run token cancelled =>
      have h := connection.start_handled fanOut token cancelled
      cases connection.life <;> exact h
  | close =>
      have h := connection.close_handled fanOut
      cases connection.life <;> exact h
  | poll cancelled signal =>
      cases hlife : connection.life with
      | running run await =>
          cases cancelled with
          | false => exact resume_handled hlife signal
          | true =>
              have h := connection.cancel_handled fanOut run await
              rw [hlife] at h
              simpa only [act, resume, hlife, if_true] using h
      | unstarted =>
          have h := connection.handled_nothing fanOut
          simpa only [act, resume, hlife] using h
      | ended failure =>
          have h := connection.handled_nothing fanOut
          simpa only [act, resume, hlife] using h

theorem handling_of_ended {failure : Option ConnectionError}
    (hlife : connection.life = .ended failure) (fanOut : FanOut) (act : Act) :
    connection.handling fanOut act = {} := by
  simp only [handling, hlife]

/-- A frame is only given up to a cancellation that ends the run. -/
theorem ended_of_interrupted {act : Act} (h : (connection.handling fanOut act).interrupted ≠ []) :
    (connection.handling fanOut act).interrupted = connection.life.inHand ∧
      (connection.act fanOut act).connection.life = .ended none := by
  unfold handling at h ⊢
  split at h
  -- A signal that is attended to interrupts nothing.
  next => exact absurd (Await.interrupted_handling _ _ _ _) h
  next run await signal hlife =>
    rw [hlife]
    refine ⟨rfl, ?_⟩
    simp only [Connection.act, resume, hlife, if_true, Turn.cancel, Turn.finish]
    rfl
  next => exact absurd rfl h

/-- A source publishes only frames that every sink can encode. -/
theorem published_isEncodable (connection : Connection) (fanOut : FanOut) (act : Act) :
    ∀ frame ∈ (connection.handling fanOut act).published, frame.IsEncodable := by
  unfold handling
  split
  next => exact Await.published_handling _ _ _ _
  next => nofun
  next => nofun

/-- No sink skips a frame as long as the queues hold only frames that can be encoded. -/
theorem skipped_eq_nil (connection : Connection) {fanOut : FanOut}
    (h : ∀ queue ∈ fanOut.sinks, ∀ frame ∈ queue.frames, frame.IsEncodable) (act : Act) :
    (connection.handling fanOut act).skipped = [] := by
  unfold handling
  split
  next => exact Await.skipped_handling _ _ _ _ h
  next => rfl
  next => rfl

end Connection

end LiveRelay
