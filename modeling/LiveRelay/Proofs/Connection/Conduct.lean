import LiveRelay.Proofs.Connection.Farewell
import LiveRelay.Proofs.Connection.Link

/-! # What a connection does, part by part

`Course` lists the changes of state that can come of an act. `Conduct` lists all of the turn: it
is put together from the parts of a step, so whatever is to be known about it, what is asked of
the network, where a host listens, what a sink reports, is known from these few parts.
-/

namespace LiveRelay

/-- Whether a link is up when this is answered. -/
def Await.links : Await → Signal → Bool
  | .dialling, .dialled (.ok _) => true
  | .accepting, .accepted (.ok _) => true
  | _, _ => false

/-- Whether this is an answer to what the task waits for. -/
def Await.heeds : Await → Signal → Bool
  | .dialling, .dialled _ => true
  | .dialling, .timedOut => true
  | .binding, .bound _ => true
  | .accepting, .accepted _ => true
  | .reading _ _, .received _ => true
  | .watching _, .received _ => true
  | .watching _, .woken => true
  | .writing _ _ _ _, .wrote _ => true
  | .pausing, .rested => true
  | _, _ => false

/-- Whether the act is for a connection that has come this far. -/
def Life.heeds : Life → Act → Bool
  | .unstarted, .run _ _ => true
  | .unstarted, .close => true
  | .running _ _, .poll true _ => true
  | .running _ await, .poll false signal => await.heeds signal
  | _, _ => false

/-- Whether bytes of a link are asked for or handed over. -/
def Request.isTraffic : Request → Bool
  | .read _ => true
  | .write _ => true
  | _ => false

/-- The bytes that a request hands to the link. -/
def Request.payload : Request → ByteArray
  | .write bytes => bytes
  | _ => .empty

/-- The bytes that are left to be written. -/
def Await.left : Await → ByteArray
  | .writing _ _ _ rest => rest
  | _ => .empty

/-- What is asked of a link by a task that waits on it: to take the bytes that are left, and when
there are none, to be read from. -/
inductive Request.Serves : Request → Await → Prop
  | reads (limit : Nat) {await : Await} (h : await.left = .empty) : Serves (.read limit) await
  | writes (codec : LinkCodec) (frame : Frame) (size : Nat) (rest : ByteArray) :
      Serves (.write rest) (.writing codec frame size rest)

theorem Request.Serves.isTraffic {request : Request} {await : Await} (h : request.Serves await) :
    request.isTraffic = true := by
  cases h <;> rfl

theorem Request.Serves.payload_eq {request : Request} {await : Await} (h : request.Serves await) :
    request.payload = await.left := by
  cases h with
  | reads limit hleft => exact hleft.symm
  | writes => rfl

theorem Await.eq_of_links {await : Await} {signal : Signal} (h : await.links signal = true) :
    await = .dialling ∨ await = .accepting := by
  unfold links at h
  split at h
  next => exact .inl rfl
  next => exact .inr rfl
  next => cases h

/-- A task waits on a link just when the connection is active. -/
theorem Await.hasLink_eq (await : Await) : await.hasLink = decide (await.state = .active) := by
  cases await <;> rfl

theorem AttemptFails.hasLink_eq {config : ConnectionConfig} {await : Await}
    {signal : Signal} {failure : ConnectionError} (h : AttemptFails config await signal failure) :
    await.hasLink = false := by
  rw [Await.hasLink_eq, h.state_eq]
  rfl

theorem LinkEnds.hasLink_eq {config : ConnectionConfig} {await : Await}
    {signal : Signal} {failure : ConnectionError} (h : LinkEnds config await signal failure) :
    await.hasLink = true := by
  rw [Await.hasLink_eq, h.state_eq]
  rfl

namespace Connection

/-- The run that begins with this token. -/
def firstRun (connection : Connection) (token : Token) : Run :=
  { token, budget := { policy := connection.config.reconnect } }

/-- What a connection asks for to get a link. -/
def quest (connection : Connection) (run : Run) : Request :=
  match connection.config.role with
  | .client => .dial connection.config.connectionTimeout
  | .host => if run.listening then .accept else .bind

/-- What it waits for then. -/
def questing (connection : Connection) (run : Run) : Await :=
  match connection.config.role with
  | .client => .dialling
  | .host => if run.listening then .accepting else .binding

/-- How many bytes it reads at once. -/
def readLimit (connection : Connection) : Nat :=
  match connection.framePath with
  | .publish => connection.config.bufferSize
  | .deliver _ => Turn.sinkReadLimit

end Connection

namespace Turn

/-- Lets go of the link, if it is up. -/
def leave (turn : Turn) (await : Await) : Turn := if await.hasLink then turn.leaveLink else turn

/-- Keeps the address at which a host listens and reports it, if it is known. -/
def learn (turn : Turn) : Option SocketAddress → Turn
  | none => turn
  | some address =>
      (turn.update fun connection => { connection with localAddress := some address }).emit
        (.listening address)

/-- Asks for something and waits for the answer. -/
def ask (turn : Turn) (request : Request) (run : Run) (await : Await) : Turn :=
  (turn.request request).suspend run await

/-- From `before` to `after` frames have been moved and counted, and nothing else has been
done. -/
structure Moves (before after : Turn) : Prop where
  effects_eq : after.effects = before.effects
  connection_eq : ∃ stats, after.connection = { before.connection with stats }

section Moves

variable {before middle after : Turn}

theorem Moves.refl (turn : Turn) : Moves turn turn := ⟨rfl, turn.connection.stats, rfl⟩

theorem Moves.trans (first : Moves before middle) (second : Moves middle after) :
    Moves before after := by
  obtain ⟨stats, hmiddle⟩ := first.connection_eq
  obtain ⟨later, hafter⟩ := second.connection_eq
  refine ⟨second.effects_eq.trans first.effects_eq, later, ?_⟩
  rw [hafter, hmiddle]

theorem count_moves (turn : Turn) (change : ConnectionStats → ConnectionStats) :
    Moves turn (turn.count change) := ⟨rfl, _, rfl⟩

theorem publish_moves (turn : Turn) (frame : Frame) : Moves turn (turn.publish frame) := by
  unfold publish
  simp only []
  split_ifs
  · exact ⟨rfl, _, rfl⟩
  · exact ⟨rfl, _, rfl⟩

theorem foldl_publish_moves (frames : List Frame) (turn : Turn) :
    Moves turn (frames.foldl publish turn) := by
  induction frames generalizing turn with
  | nil => exact Moves.refl turn
  | cons frame frames ih => exact (turn.publish_moves frame).trans (ih _)

end Moves

variable (turn : Turn) (run : Run)

theorem seekLink_eq : turn.seekLink run =
    turn.ask (turn.connection.quest run) run (turn.connection.questing run) := by
  unfold seekLink Connection.quest Connection.questing
  cases turn.connection.config.role with
  | client => rfl
  | host => cases run.listening <;> rfl

theorem linkUp_eq :
    turn.linkUp run =
      ((turn.count (·.addLink)).transition .active 0 none).ask (.read turn.connection.readLimit)
        { run with budget := run.budget.reset }
        (.opening turn.connection.config.codec turn.connection.framePath) := by
  unfold linkUp Connection.readLimit
  simp only [count, connection_transition, connection_update]
  cases turn.connection.framePath <;> rfl

theorem retry_of_spent (h : run.budget.consume? = none) (failure : ConnectionError) :
    turn.retry run failure =
      (turn.transition .reconnecting run.budget.used (some failure)).finish run false
        (some (.budgetExhausted turn.connection.config.address run.budget.used)) := by
  rw [retry, h]
  rfl

theorem retry_of_left {budget : RetryBudget} (h : run.budget.consume? = some budget)
    (failure : ConnectionError) :
    turn.retry run failure =
      (turn.transition .reconnecting run.budget.used (some failure)).ask
        (.pause turn.connection.config.reconnectInterval) { run with budget } .pausing := by
  rw [retry, h]
  rfl

theorem bound_of_ok (address : Option SocketAddress) :
    turn.bound run (.ok address) =
      (turn.learn address).ask (turn.connection.quest { run with listening := true })
        { run with listening := true }
        (turn.connection.questing { run with listening := true }) := by
  cases address <;> exact seekLink_eq _ _

end Turn

namespace Connection

/-- How many of the frames that its queue has given up a sink has reported once it has looked. -/
def reportedAfter (connection : Connection) (fanOut : FanOut) : Nat :=
  match connection.framePath with
  | .publish => connection.droppedReported
  | .deliver sink => fanOut.dropped sink

theorem mem_dropReport {connection : Connection} {fanOut : FanOut} {kind : EventKind}
    (h : kind ∈ connection.dropReport fanOut) :
    ∃ dropped total, kind = .framesDropped dropped total := by
  unfold dropReport at h
  split at h
  next => cases h
  next =>
    simp only [] at h
    split_ifs at h
    · exact ⟨_, _, List.mem_singleton.mp h⟩
    · cases h

/-- What is seen of the link being let go, if it is up. -/
def parting (connection : Connection) (fanOut : FanOut) (await : Await) : List Effect :=
  if await.hasLink then (connection.dropReport fanOut).map .emit ++ [.request .hangUp] else []

end Connection

/-- What is seen of the end of a run. The listener goes first, if there is one. -/
def Run.ending (run : Run) (state : ConnectionState) (failure : Option ConnectionError) :
    List Effect :=
  (if run.listening then [.request .unbind] else [])
    ++ [.emit (.transition state .closed run.budget.used failure),
      .emit (.stopped (failure.map (·.message)))]

namespace Turn

/-! ### What the parts come to -/

section Parts

variable (turn : Turn) (run : Run) (await : Await)

@[simp] theorem effects_emit (kind : EventKind) :
    (turn.emit kind).effects = turn.effects ++ [.emit kind] := rfl

@[simp] theorem effects_update (change : Connection → Connection) :
    (turn.update change).effects = turn.effects := rfl

@[simp] theorem effects_transition (target : ConnectionState) (attempt : Nat)
    (failure : Option ConnectionError) :
    (turn.transition target attempt failure).effects =
      turn.effects ++ [.emit (.transition turn.connection.state target attempt failure)] := rfl

@[simp] theorem effects_ask (request : Request) :
    (turn.ask request run await).effects = turn.effects ++ [.request request] := rfl

@[simp] theorem connection_ask (request : Request) :
    (turn.ask request run await).connection =
      { turn.connection with life := .running run await } := rfl

@[simp] theorem fanOut_ask (request : Request) :
    (turn.ask request run await).fanOut = turn.fanOut := rfl

theorem reportDrops_eq :
    turn.reportDrops =
      { connection := { turn.connection with
          droppedReported := turn.connection.reportedAfter turn.fanOut }
        fanOut := turn.fanOut
        effects := turn.effects ++ (turn.connection.dropReport turn.fanOut).map .emit } := by
  unfold reportDrops Connection.dropReport Connection.reportedAfter
  cases turn.connection.framePath with
  | publish => simp
  | deliver sink =>
      simp only []
      split_ifs <;> simp [update, emit]

theorem effects_leave :
    (turn.leave await).effects =
      turn.effects ++ turn.connection.parting turn.fanOut await := by
  unfold leave leaveLink Connection.parting
  split_ifs
  · simp [reportDrops_eq, Turn.request]
  · simp

theorem connection_leave :
    (turn.leave await).connection = { turn.connection with
      droppedReported :=
        if await.hasLink then turn.connection.reportedAfter turn.fanOut
        else turn.connection.droppedReported } := by
  unfold leave leaveLink
  split_ifs
  · simp [reportDrops_eq]
  · rfl

@[simp] theorem fanOut_leave : (turn.leave await).fanOut = turn.fanOut := by
  unfold leave leaveLink
  split_ifs
  · simp [reportDrops_eq, Turn.request]
  · rfl

theorem effects_finish (cancelled : Bool) (failure : Option ConnectionError) :
    (turn.finish run cancelled failure).effects = turn.effects
      ++ (if cancelled then
        [.emit (.transition turn.connection.state .draining run.budget.used none)] else [])
      ++ run.ending (if cancelled then .draining else turn.connection.state) failure := by
  unfold finish Run.ending
  cases cancelled <;> cases run.listening <;> simp [transition, emit, update, Turn.request]

@[simp] theorem connection_finish (cancelled : Bool) (failure : Option ConnectionError) :
    (turn.finish run cancelled failure).connection = { turn.connection with
      state := .closed, attempt := run.budget.used
      lastFailure := failure.or turn.connection.lastFailure
      localAddress := none, life := .ended failure } := by
  unfold finish
  cases cancelled <;> cases run.listening <;> rfl

@[simp] theorem fanOut_finish (cancelled : Bool) (failure : Option ConnectionError) :
    (turn.finish run cancelled failure).fanOut = turn.fanOut := by
  unfold finish
  cases cancelled <;> cases run.listening <;> rfl

theorem effects_learn (address : Option SocketAddress) :
    (turn.learn address).effects =
      turn.effects ++ (address.map (Effect.emit ∘ EventKind.listening)).toList := by
  cases address <;> simp [learn]

theorem connection_learn (address : Option SocketAddress) :
    (turn.learn address).connection = { turn.connection with
      localAddress := address.or turn.connection.localAddress } := by
  cases address <;> simp [learn]

/-- A change of state is among the effects. -/
theorem mem_effects_of_mem_transitions {change : Transition} (h : change ∈ turn.transitions) :
    .emit (.transition change.source change.target change.attempt change.failure) ∈
      turn.effects := by
  obtain ⟨effect, heffect, hchange⟩ := List.mem_filterMap.mp h
  unfold Effect.transition? at hchange
  split at hchange
  next => cases hchange; exact heffect
  next => cases hchange

end Parts

end Turn

namespace Connection

/-- What comes of an act when the fan-out of the endpoint looks like this. -/
inductive Conduct (connection : Connection) (fanOut : FanOut) : Act → Turn → Prop
  /-- That it has been asked to close is all that may come of it. -/
  | rests {act : Act} (h : connection.life.heeds act = false) (asked : Bool) :
      Conduct connection fanOut act
        { connection := { connection with closeRequested := asked }, fanOut }
  | closes (h : connection.life = .unstarted) :
      Conduct connection fanOut .close
        ((({ connection := { connection with closeRequested := true }, fanOut } : Turn).transition
          .closed 0 none).update fun connection => { connection with life := .ended none })
  | begins (h : connection.life = .unstarted) (token : Token) :
      Conduct connection fanOut (.run token false)
        (((({ connection, fanOut } : Turn).emit .started).transition .establishing 0 none).ask
          (connection.quest (connection.firstRun token)) (connection.firstRun token)
          (connection.questing (connection.firstRun token)))
  | beginsInVain (h : connection.life = .unstarted) (token : Token) :
      Conduct connection fanOut (.run token true)
        (((({ connection, fanOut } : Turn).emit .started).transition .establishing 0 none).finish
          (connection.firstRun token) true none)
  | interrupted {run : Run} {await : Await} (h : connection.life = .running run await)
      (signal : Signal) :
      Conduct connection fanOut (.poll true signal)
        ((({ connection, fanOut } : Turn).leave await).finish run true none)
  | bound {run : Run} (h : connection.life = .running run .binding)
      (address : Option SocketAddress) :
      Conduct connection fanOut (.poll false (.bound (.ok address)))
        ((({ connection, fanOut } : Turn).learn address).ask
          (connection.quest { run with listening := true }) { run with listening := true }
          (connection.questing { run with listening := true }))
  | linked {run : Run} {await : Await} (h : connection.life = .running run await)
      {signal : Signal} (hlinks : await.links signal = true) {moved : Turn}
      (hmoves : Turn.Moves { connection, fanOut } moved) :
      Conduct connection fanOut (.poll false signal)
        ((moved.transition .active 0 none).ask (.read connection.readLimit)
          { run with budget := run.budget.reset }
          (.opening connection.config.codec connection.framePath))
  /-- Bytes have been read or written, and the link stays up. -/
  | proceeds {run : Run} {await await' : Await} (h : connection.life = .running run await)
      (hlink : await.hasLink = true) {signal : Signal} {moved : Turn}
      (hmoves : Turn.Moves { connection, fanOut } moved) {request : Request}
      (hrequest : request.Serves await') (hlink' : await'.hasLink = true) :
      Conduct connection fanOut (.poll false signal) (moved.ask request run await')
  /-- There is nothing in the queue of a sink. -/
  | idles {run : Run} {codec : LinkCodec} (h : connection.life = .running run (.watching codec)) :
      Conduct connection fanOut (.poll false .woken) { connection, fanOut }
  /-- A sink takes a frame from its queue. -/
  | takes {run : Run} {codec : LinkCodec} (h : connection.life = .running run (.watching codec))
      {moved : Turn}
      (hmoves : Turn.Moves (Turn.reportDrops { connection, fanOut := moved.fanOut }) moved)
      {request : Request} {await' : Await} (hrequest : request.Serves await')
      (hlink' : await'.hasLink = true) :
      Conduct connection fanOut (.poll false .woken) (moved.ask request run await')
  | queueClosed {run : Run} {codec : LinkCodec}
      (h : connection.life = .running run (.watching codec))
      (hclosed : connection.QueueClosed fanOut) :
      Conduct connection fanOut (.poll false .woken)
        ((({ connection, fanOut } : Turn).leave (.watching codec)).finish run false none)
  | singleShotOver {run : Run} {await : Await} (h : connection.life = .running run await)
      {signal : Signal} {failure : ConnectionError} (hsingle : connection.isSingleShot = true)
      (hends : LinkEnds connection.config await signal failure) {moved : Turn}
      (hmoves : Turn.Moves { connection, fanOut } moved) :
      Conduct connection fanOut (.poll false signal)
        ((moved.leave await).finish run false failure.unlessPeerClosed)
  | pauses {run : Run} {await : Await} (h : connection.life = .running run await)
      {signal : Signal} {failure : ConnectionError}
      (hfailure : connection.IsToRetry await signal failure) {moved : Turn}
      (hmoves : Turn.Moves { connection, fanOut } moved)
      {budget : RetryBudget} (hbudget : run.budget.consume? = some budget) :
      Conduct connection fanOut (.poll false signal)
        (((moved.leave await).transition .reconnecting run.budget.used (some failure)).ask
          (.pause connection.config.reconnectInterval) { run with budget } .pausing)
  | givesUp {run : Run} {await : Await} (h : connection.life = .running run await)
      {signal : Signal} {failure : ConnectionError}
      (hfailure : connection.IsToRetry await signal failure) {moved : Turn}
      (hmoves : Turn.Moves { connection, fanOut } moved)
      (hbudget : run.budget.consume? = none) :
      Conduct connection fanOut (.poll false signal)
        (((moved.leave await).transition .reconnecting run.budget.used (some failure)).finish run
          false (some (.budgetExhausted connection.config.address run.budget.used)))
  | retried {run : Run} (h : connection.life = .running run .pausing) :
      Conduct connection fanOut (.poll false .rested)
        ((({ connection, fanOut } : Turn).transition .establishing run.budget.used none).ask
          (connection.quest run) run (connection.questing run))

variable {connection : Connection} {fanOut : FanOut} {run : Run} {await : Await}
  {signal : Signal} {failure : ConnectionError} {moved : Turn}

theorem start_conducts (connection : Connection) (fanOut : FanOut) (token : Token)
    (cancelled : Bool) :
    Conduct connection fanOut (.run token cancelled) (connection.start fanOut token cancelled) := by
  unfold start
  split
  next hlife =>
    cases cancelled with
    | true => exact .beginsInVain hlife token
    | false =>
        simp only [Bool.false_eq_true, if_false, Turn.establish, Turn.seekLink_eq]
        exact .begins hlife token
  next hstarted =>
    apply Conduct.rests _ connection.closeRequested
    cases hlife : connection.life with
    | unstarted => exact absurd hlife hstarted
    | running => rfl
    | ended => rfl

theorem close_conducts (connection : Connection) (fanOut : FanOut) :
    Conduct connection fanOut .close (connection.close fanOut) := by
  unfold close
  split
  next hlife => exact .closes hlife
  next hstarted =>
    apply Conduct.rests _ true
    cases hlife : connection.life with
    | unstarted => exact absurd hlife hstarted
    | running => rfl
    | ended => rfl

/-- After a failure that is one to retry after the connection pauses or gives up. -/
theorem retry_conducts (h : connection.life = .running run await)
    (hfailure : connection.IsToRetry await signal failure)
    (hmoves : Turn.Moves { connection, fanOut } moved) :
    Conduct connection fanOut (.poll false signal) ((moved.leave await).retry run failure) := by
  have hconfig : (moved.leave await).connection.config = connection.config := by
    obtain ⟨stats, hconnection⟩ := hmoves.connection_eq
    have hmoved : moved.connection.config = connection.config := by rw [hconnection]
    unfold Turn.leave
    split_ifs
    · exact moved.leaveLink_stays.config_eq.trans hmoved
    · exact hmoved
  cases hbudget : run.budget.consume? with
  | none =>
      rw [Turn.retry_of_spent _ _ hbudget, hconfig]
      exact .givesUp h hfailure hmoves hbudget
  | some budget =>
      rw [Turn.retry_of_left _ _ hbudget, hconfig]
      exact .pauses h hfailure hmoves hbudget

theorem attempt_conducts (h : connection.life = .running run await)
    (hfails : AttemptFails connection.config await signal failure) :
    Conduct connection fanOut (.poll false signal)
      (({ connection, fanOut } : Turn).retry run failure) := by
  have hretry := retry_conducts h (.inl hfails) (Turn.Moves.refl { connection, fanOut })
  rw [Turn.leave, hfails.hasLink_eq] at hretry
  exact hretry

theorem loseLink_conducts (h : connection.life = .running run await)
    (hends : LinkEnds connection.config await signal failure)
    (hmoves : Turn.Moves { connection, fanOut } moved) :
    Conduct connection fanOut (.poll false signal) (moved.loseLink run failure) := by
  have hleave : moved.leave await = moved.leaveLink := if_pos hends.hasLink_eq
  have hsame : moved.connection.isSingleShot = connection.isSingleShot := by
    obtain ⟨stats, hconnection⟩ := hmoves.connection_eq
    rw [hconnection]
    rfl
  cases hsingle : connection.isSingleShot with
  | true =>
      rw [Turn.loseLink_eq_finish (hsame.trans hsingle), ← hleave]
      exact .singleShotOver h hsingle hends hmoves
  | false =>
      rw [Turn.loseLink_eq_retry (hsame.trans hsingle), ← hleave]
      exact retry_conducts h (.inr ⟨hends, hsingle⟩) hmoves

theorem linkUp_conducts (h : connection.life = .running run await)
    (hlinks : await.links signal = true) :
    Conduct connection fanOut (.poll false signal)
      (({ connection, fanOut } : Turn).linkUp run) := by
  rw [Turn.linkUp_eq]
  exact .linked h hlinks (Turn.count_moves _ _)

theorem received_conducts (h : connection.life = .running run await) (hreads : await.reads = true)
    (outcome : Except String ByteArray) {next : Turn → ByteArray → Turn}
    (hnext : ∀ data, data.isEmpty = false →
      ∀ moved, Turn.Moves { connection, fanOut } moved →
        Conduct connection fanOut (.poll false (.received (.ok data))) (next moved data)) :
    Conduct connection fanOut (.poll false (.received outcome))
      (({ connection, fanOut } : Turn).received run outcome next) := by
  unfold Turn.received
  cases outcome with
  | error cause => exact loseLink_conducts h (.readFailed hreads cause) (Turn.Moves.refl _)
  | ok data =>
      simp only []
      split_ifs with hempty
      · exact loseLink_conducts h (.peerLeft hreads hempty) (Turn.Moves.refl _)
      · exact hnext data (Bool.not_eq_true _ ▸ hempty) _ (Turn.count_moves _ _)

theorem decode_conducts {codec : LinkCodec} {pending data : ByteArray}
    (h : connection.life = .running run (.reading codec pending)) (hdata : data.isEmpty = false)
    (hmoves : Turn.Moves { connection, fanOut } moved) :
    Conduct connection fanOut (.poll false (.received (.ok data)))
      (moved.decode run codec (pending ++ data)) := by
  have hpublished : Turn.Moves { connection, fanOut }
      ((codec.drain (pending ++ data)).frames.foldl Turn.publish moved) :=
    hmoves.trans (Turn.foldl_publish_moves _ moved)
  unfold Turn.decode
  simp only []
  split
  next error herror =>
    obtain ⟨stats, hconnection⟩ := hpublished.connection_eq
    rw [Turn.address, hconnection]
    exact loseLink_conducts h (.malformed hdata herror) hpublished
  next => exact .proceeds h rfl hpublished (.reads _ rfl) rfl

/-- Whatever there is to write is written, or the sink waits for the next frame. -/
theorem write_eq (turn : Turn) (run : Run) (codec : LinkCodec) (frame : Frame) (size : Nat)
    (rest : ByteArray) : ∃ moved request await, Turn.Moves turn moved ∧
      moved.fanOut = turn.fanOut ∧ Request.Serves request await ∧ Await.hasLink await = true ∧
      turn.write run codec frame size rest = moved.ask request run await := by
  unfold Turn.write
  split_ifs
  · exact ⟨_, _, _, turn.count_moves _, rfl, .reads _ rfl, rfl, rfl⟩
  · exact ⟨_, _, _, Turn.Moves.refl turn, rfl, .writes _ _ _ _, rfl, rfl⟩

theorem send_eq (turn : Turn) (run : Run) (codec : LinkCodec) (frame : Frame) :
    ∃ moved request await, Turn.Moves turn moved ∧
      moved.fanOut = turn.fanOut ∧ Request.Serves request await ∧ Await.hasLink await = true ∧
      turn.send run codec frame = moved.ask request run await := by
  unfold Turn.send
  simp only []
  split
  next => exact ⟨_, _, _, Turn.Moves.refl turn, rfl, .reads _ rfl, rfl, rfl⟩
  next => exact write_eq _ _ _ _ _ _

theorem takeFrame_conducts {codec : LinkCodec}
    (h : connection.life = .running run (.watching codec)) :
    Conduct connection fanOut (.poll false .woken)
      (({ connection, fanOut } : Turn).takeFrame run codec) := by
  unfold Turn.takeFrame
  simp only []
  split
  next => exact .idles h
  next sink hpath =>
    split
    next => exact .idles h
    next hpop =>
      obtain ⟨queue, hclosed⟩ := FanOut.closed_of_pop hpop
      exact .queueClosed h ⟨sink, queue, hpath, hclosed⟩
    next frame later hpop =>
      obtain ⟨moved, request, await, hmoves, hfanOut, hrequest, hlink, hsend⟩ :=
        send_eq (Turn.reportDrops { connection, fanOut := later }) run codec frame
      rw [Turn.reportDrops_eq] at hfanOut
      obtain rfl : moved.fanOut = later := hfanOut
      rw [hsend]
      exact .takes h hmoves hrequest hlink

theorem wrote_conducts {codec : LinkCodec} {frame : Frame} {size : Nat} {rest : ByteArray}
    (h : connection.life = .running run (.writing codec frame size rest))
    (outcome : Except String Nat) :
    Conduct connection fanOut (.poll false (.wrote outcome))
      (({ connection, fanOut } : Turn).wrote run codec frame size rest outcome) := by
  have hlost := Turn.count_moves { connection, fanOut } (·.addLost)
  unfold Turn.wrote
  split
  next cause => exact loseLink_conducts h (.writeFailed cause) hlost
  next => exact loseLink_conducts h .writeRefused hlost
  next taken _ =>
    obtain ⟨moved, request, await, hmoves, -, hrequest, hlink, hwrite⟩ :=
      write_eq { connection, fanOut } run codec frame size (rest.extract taken rest.size)
    rw [hwrite]
    exact .proceeds h rfl hmoves hrequest hlink

theorem resume_conducts (h : connection.life = .running run await) (signal : Signal) :
    Conduct connection fanOut (.poll false signal) (connection.resume fanOut false signal) := by
  unfold resume
  simp only [h, Bool.false_eq_true, if_false]
  split
  next outcome =>
    cases outcome with
    | error cause => exact attempt_conducts h (.undialled cause)
    | ok _ => exact linkUp_conducts h rfl
  next => exact attempt_conducts h .timedOut
  next outcome =>
    cases outcome with
    | error cause => exact attempt_conducts h (.unbound cause)
    | ok address =>
        rw [Turn.bound_of_ok]
        exact .bound h address
  next outcome =>
    cases outcome with
    | error cause => exact attempt_conducts h (.unaccepted cause)
    | ok _ => exact linkUp_conducts h rfl
  next codec pending outcome =>
    exact received_conducts h rfl outcome fun data hdata moved hmoves =>
      decode_conducts h hdata hmoves
  next codec outcome =>
    exact received_conducts h rfl outcome fun data _ moved hmoves =>
      .proceeds h rfl hmoves (.reads _ rfl) rfl
  next codec => exact takeFrame_conducts h
  next codec frame size rest outcome => exact wrote_conducts h outcome
  next =>
    rw [Turn.establish, Turn.seekLink_eq]
    exact .retried h
  next =>
    apply Conduct.rests _ connection.closeRequested
    rw [h, Life.heeds]
    unfold Await.heeds
    split <;> grind

/-- Whatever happens to a connection, it conducts itself in one of these ways. -/
theorem act_conducts (connection : Connection) (fanOut : FanOut) (act : Act) :
    Conduct connection fanOut act (connection.act fanOut act) := by
  cases act with
  | run token cancelled => exact start_conducts connection fanOut token cancelled
  | close => exact close_conducts connection fanOut
  | poll cancelled signal =>
      have hrests : ∀ life, connection.life = life → life.heeds (.poll cancelled signal) = false →
          Conduct connection fanOut (.poll cancelled signal) { connection, fanOut } := by
        rintro life rfl hheeds
        exact .rests hheeds connection.closeRequested
      cases hlife : connection.life with
      | unstarted =>
          simp only [Connection.act, resume, hlife]
          exact hrests _ hlife rfl
      | ended failure =>
          simp only [Connection.act, resume, hlife]
          exact hrests _ hlife rfl
      | running run await =>
          cases cancelled with
          | false => exact resume_conducts hlife signal
          | true =>
              simp only [Connection.act, resume, hlife, if_true]
              exact .interrupted hlife signal

end Connection

end LiveRelay
