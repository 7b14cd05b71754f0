import LiveRelay.Proofs.Connection.Turn

/-! # What a connection does when something happens to it

A connection is run, its task is looked at, and it is closed, in any order and any number
of times. `Course` lists what can come of one such act, and `act_takesCourse` says that there
is nothing else.
-/

namespace LiveRelay

/-- In one of these ways an attempt to get a link with `config` fails. -/
inductive AttemptFails (config : ConnectionConfig) : Await → Signal → ConnectionError → Prop
  | undialled (cause : String) :
      AttemptFails config .dialling (.dialled (.error cause)) (.establish config.address cause)
  | timedOut :
      AttemptFails config .dialling .timedOut
        (.establishTimeout config.address config.connectionTimeout)
  | unbound (cause : String) :
      AttemptFails config .binding (.bound (.error cause)) (.establish config.address cause)
  | unaccepted (cause : String) :
      AttemptFails config .accepting (.accepted (.error cause)) (.establish config.address cause)

/-- Whether a read from the link is under way. A sink reads while it waits for a frame. -/
def Await.reads : Await → Bool
  | .reading _ _ => true
  | .watching _ => true
  | _ => false

/-- In one of these ways a link that is up ends. -/
inductive LinkEnds (config : ConnectionConfig) : Await → Signal → ConnectionError → Prop
  | readFailed {await : Await} (h : await.reads = true) (cause : String) :
      LinkEnds config await (.received (.error cause)) (.link config.address cause)
  | peerLeft {await : Await} (h : await.reads = true) {data : ByteArray}
      (hempty : data.isEmpty = true) :
      LinkEnds config await (.received (.ok data)) (.peerClosed config.address)
  | malformed {codec : LinkCodec} {pending data : ByteArray} {error : CodecError}
      (hdata : data.isEmpty = false)
      (herror : (codec.drain (pending ++ data)).error? = some error) :
      LinkEnds config (.reading codec pending) (.received (.ok data))
        (.codec config.address error.message)
  | writeFailed {codec : LinkCodec} {frame : Frame} {size : Nat} {rest : ByteArray}
      (cause : String) :
      LinkEnds config (.writing codec frame size rest) (.wrote (.error cause))
        (.link config.address cause)
  | writeRefused {codec : LinkCodec} {frame : Frame} {size : Nat} {rest : ByteArray} :
      LinkEnds config (.writing codec frame size rest) (.wrote (.ok 0))
        (.link config.address "write zero")

theorem AttemptFails.isEstablishFailure {config : ConnectionConfig} {await : Await}
    {signal : Signal} {failure : ConnectionError} (h : AttemptFails config await signal failure) :
    failure.isEstablishFailure = true := by
  cases h <;> rfl

theorem AttemptFails.state_eq {config : ConnectionConfig} {await : Await}
    {signal : Signal} {failure : ConnectionError} (h : AttemptFails config await signal failure) :
    await.state = .establishing := by
  cases h <;> rfl

theorem LinkEnds.isLinkFailure {config : ConnectionConfig} {await : Await}
    {signal : Signal} {failure : ConnectionError} (h : LinkEnds config await signal failure) :
    failure.isLinkFailure = true := by
  cases h <;> rfl

theorem Await.state_of_reads {await : Await} (h : await.reads = true) :
    await.state = .active := by
  cases await <;> first | rfl | cases h

theorem LinkEnds.state_eq {config : ConnectionConfig} {await : Await}
    {signal : Signal} {failure : ConnectionError} (h : LinkEnds config await signal failure) :
    await.state = .active := by
  cases h with
  | readFailed h => exact Await.state_of_reads h
  | peerLeft h => exact Await.state_of_reads h
  | malformed => rfl
  | writeFailed => rfl
  | writeRefused => rfl

/-- Only a queue that is closed has nothing more to give. -/
theorem FanOut.closed_of_pop {fanOut rest : FanOut} {sink : Nat}
    (h : fanOut.pop sink = (.finished, rest)) :
    ∃ queue, fanOut.sinks[sink]? = some queue ∧ queue.closed = true := by
  unfold FanOut.pop at h
  split at h
  next => cases h
  next queue hqueue =>
    refine ⟨queue, hqueue, ?_⟩
    rw [Prod.mk.injEq] at h
    by_contra hopen
    simp only [SinkQueue.pop, if_neg hopen] at h
    split at h <;> cases h.1

/-- What can happen to a connection. Whether its run has been cancelled is decided outside
of it. -/
inductive Act where
  /-- It is run, with a token that may have been cancelled already. -/
  | run (token : Token) (cancelled : Bool)
  /-- The task of its run is looked at, with a signal for it. -/
  | poll (cancelled : Bool) (signal : Signal)
  | close

/-- Whether the act finds the run cancelled. -/
def Act.cancelled : Act → Bool
  | run _ cancelled => cancelled
  | poll cancelled _ => cancelled
  | close => false

def Act.isRun : Act → Bool
  | run _ _ => true
  | _ => false

namespace Connection

/-- What an act comes to when the fan-out of the endpoint looks like this. -/
def act (connection : Connection) (fanOut : FanOut) : Act → Turn
  | .run token cancelled => connection.start fanOut token cancelled
  | .poll cancelled signal => connection.resume fanOut cancelled signal
  | .close => connection.close fanOut

/-- The failure is one after which the connection is to try again: an attempt has failed,
or the link has and its host does not end with it. -/
def IsToRetry (connection : Connection) (await : Await) (signal : Signal)
    (failure : ConnectionError) : Prop :=
  AttemptFails connection.config await signal failure ∨
    LinkEnds connection.config await signal failure ∧ connection.isSingleShot = false

/-- The endpoint has closed the queue from which the connection takes its frames. -/
def QueueClosed (connection : Connection) (fanOut : FanOut) : Prop :=
  ∃ sink queue, connection.framePath = .deliver sink ∧
    fanOut.sinks[sink]? = some queue ∧ queue.closed = true

/-- What can come of an act: the changes of state that are reported, and how far the
connection has come then. -/
inductive Course (connection : Connection) (fanOut : FanOut) :
    Act → List Transition → Life → Prop
  | nothing {act : Act} (h : act.isRun = true → connection.life ≠ .unstarted) :
      Course connection fanOut act [] connection.life
  | begun (h : connection.life = .unstarted) (token : Token) {await : Await}
      (hawait : await.state = .establishing) :
      Course connection fanOut (.run token false) [⟨.idle, .establishing, 0, none⟩]
        (.running { token, budget := { policy := connection.config.reconnect } } await)
  | begunInVain (h : connection.life = .unstarted) (token : Token) :
      Course connection fanOut (.run token true)
        [⟨.idle, .establishing, 0, none⟩, ⟨.establishing, .draining, 0, none⟩,
          ⟨.draining, .closed, 0, none⟩]
        (.ended none)
  | closedUnstarted (h : connection.life = .unstarted) :
      Course connection fanOut .close [⟨.idle, .closed, 0, none⟩] (.ended none)
  | interrupted {run : Run} {await : Await} (h : connection.life = .running run await)
      (signal : Signal) :
      Course connection fanOut (.poll true signal)
        [⟨await.state, .draining, run.budget.used, none⟩,
          ⟨.draining, .closed, run.budget.used, none⟩]
        (.ended none)
  | busy {run next : Run} {await await' : Await} (h : connection.life = .running run await)
      (signal : Signal) (hbudget : next.budget = run.budget)
      (hstate : await'.state = await.state) :
      Course connection fanOut (.poll false signal) [] (.running next await')
  | linked {run : Run} {await await' : Await} (h : connection.life = .running run await)
      (signal : Signal) (hstate : await.state = .establishing) (hlinked : await'.state = .active) :
      Course connection fanOut (.poll false signal) [⟨.establishing, .active, 0, none⟩]
        (.running { run with budget := run.budget.reset } await')
  | failed {run : Run} {await : Await} (h : connection.life = .running run await)
      {signal : Signal} {failure : ConnectionError}
      (hfailure : connection.IsToRetry await signal failure)
      {budget : RetryBudget} (hbudget : run.budget.consume? = some budget) :
      Course connection fanOut (.poll false signal)
        [⟨await.state, .reconnecting, run.budget.used, some failure⟩]
        (.running { run with budget } .pausing)
  | exhausted {run : Run} {await : Await} (h : connection.life = .running run await)
      {signal : Signal} {failure : ConnectionError}
      (hfailure : connection.IsToRetry await signal failure)
      (hbudget : run.budget.consume? = none) :
      Course connection fanOut (.poll false signal)
        [⟨await.state, .reconnecting, run.budget.used, some failure⟩,
          ⟨.reconnecting, .closed, run.budget.used,
            some (.budgetExhausted connection.config.address run.budget.used)⟩]
        (.ended (some (.budgetExhausted connection.config.address run.budget.used)))
  | singleShotOver {run : Run} {await : Await} (h : connection.life = .running run await)
      {signal : Signal} {failure : ConnectionError}
      (hsingle : connection.isSingleShot = true)
      (hends : LinkEnds connection.config await signal failure) :
      Course connection fanOut (.poll false signal)
        [⟨.active, .closed, run.budget.used, failure.unlessPeerClosed⟩]
        (.ended failure.unlessPeerClosed)
  | queueClosed {run : Run} {codec : LinkCodec}
      (h : connection.life = .running run (.watching codec))
      (hclosed : connection.QueueClosed fanOut) :
      Course connection fanOut (.poll false .woken)
        [⟨.active, .closed, run.budget.used, none⟩] (.ended none)
  | retried {run : Run} (h : connection.life = .running run .pausing) {await : Await}
      (hawait : await.state = .establishing) :
      Course connection fanOut (.poll false .rested)
        [⟨.reconnecting, .establishing, run.budget.used, none⟩] (.running run await)

/-- The state is the one that belongs to how far the connection has come. -/
def Coherent (connection : Connection) : Prop := connection.state = connection.life.state

/-- What a turn has come to is one of the things that can come of the act. -/
def TakesCourse (connection : Connection) (fanOut : FanOut) (act : Act) (turn : Turn) : Prop :=
  ∃ passed life, Course connection fanOut act passed life ∧
    Turn.Goes { connection, fanOut } turn passed life

variable {connection : Connection} {fanOut : FanOut} {turn : Turn} {run : Run} {await : Await}
  {signal : Signal} {failure : ConnectionError}

theorem takesCourse_nothing (h : connection.Coherent) {act : Act}
    (hact : act.isRun = true → connection.life ≠ .unstarted)
    (hstays : Turn.Stays { connection, fanOut } turn) :
    connection.TakesCourse fanOut act turn := by
  refine ⟨_, _, .nothing hact, ?_⟩
  constructor
  · rw [hstays.transitions_eq, List.append_nil]
  · exact hstays.life_eq
  · exact hstays.state_eq.trans h
  · exact hstays.config_eq
  · exact hstays.framePath_eq

theorem start_takesCourse (h : connection.Coherent) (token : Token) (cancelled : Bool) :
    connection.TakesCourse fanOut (.run token cancelled)
      (connection.start fanOut token cancelled) := by
  let opened : Turn := ({ connection, fanOut } : Turn).emit .started
  let run : Run := { token, budget := { policy := connection.config.reconnect } }
  have hstays : Turn.Stays { connection, fanOut } opened := by
    constructor <;> simp [opened, Effect.transition?]
  unfold start
  split
  next hlife =>
    have hidle : opened.connection.state = .idle := by
      rw [hstays.state_eq, h, hlife]
      rfl
    simp only []
    split_ifs with hcancelled
    · subst hcancelled
      refine ⟨_, _, .begunInVain hlife token, hstays.goes ?_⟩
      rw [← hidle]
      exact (Turn.finish_goes _ run true none).of_transition
    · rw [Bool.not_eq_true] at hcancelled
      subst hcancelled
      obtain ⟨await, hawait, hgoes⟩ := opened.establish_goes run
      refine ⟨_, _, .begun hlife token hawait, hstays.goes ?_⟩
      rw [← hidle]
      exact hgoes
  next hstarted => exact takesCourse_nothing h (fun _ => hstarted) (by constructor <;> rfl)

theorem close_takesCourse (h : connection.Coherent) :
    connection.TakesCourse fanOut .close (connection.close fanOut) := by
  unfold close
  split
  next hlife =>
    have hidle : connection.state = .idle := by
      rw [h, hlife]
      rfl
    refine ⟨_, _, .closedUnstarted hlife, ?_⟩
    constructor <;> simp [Life.state, hidle]
  next => exact takesCourse_nothing h (by simp [Act.isRun]) (by constructor <;> rfl)

/-- A failure after which the connection is to try again takes a retry, or ends the run. -/
theorem retry_takesCourse (hlife : connection.life = .running run await)
    (h : connection.Coherent) (hfailure : connection.IsToRetry await signal failure)
    (hstays : Turn.Stays { connection, fanOut } turn) :
    connection.TakesCourse fanOut (.poll false signal) (turn.retry run failure) := by
  have hstate : turn.connection.state = await.state := by
    rw [hstays.state_eq, h, hlife]
    rfl
  have haddress : turn.address = connection.config.address := by
    rw [Turn.address, hstays.config_eq]
  cases hbudget : run.budget.consume? with
  | none =>
      have hgoes := Turn.retry_goes_exhausted hbudget turn failure
      rw [hstate, haddress] at hgoes
      exact ⟨_, _, .exhausted hlife hfailure hbudget, hstays.goes hgoes⟩
  | some budget =>
      have hgoes := Turn.retry_goes hbudget turn failure
      rw [hstate] at hgoes
      exact ⟨_, _, .failed hlife hfailure hbudget, hstays.goes hgoes⟩

theorem loseLink_takesCourse (hlife : connection.life = .running run await)
    (h : connection.Coherent) (hends : LinkEnds connection.config await signal failure)
    (hstays : Turn.Stays { connection, fanOut } turn) :
    connection.TakesCourse fanOut (.poll false signal) (turn.loseLink run failure) := by
  have hactive : turn.connection.state = .active := by
    rw [hstays.state_eq, h, hlife]
    exact hends.state_eq
  have hsame : turn.connection.isSingleShot = connection.isSingleShot := by
    rw [isSingleShot, hstays.config_eq]
    rfl
  cases hsingle : connection.isSingleShot with
  | true =>
      have hgoes := Turn.loseLink_goes (hsame.trans hsingle) run failure
      rw [hactive] at hgoes
      exact ⟨_, _, .singleShotOver hlife hsingle hends, hstays.goes hgoes⟩
  | false =>
      rw [Turn.loseLink_eq_retry (hsame.trans hsingle)]
      exact retry_takesCourse hlife h (.inr ⟨hends, hsingle⟩) (hstays.trans turn.leaveLink_stays)

/-- Whatever the failure is, once it is one to retry after that is what comes next. -/
theorem resume_of_isToRetry (hlife : connection.life = .running run await)
    (h : connection.IsToRetry await signal failure) (fanOut : FanOut) :
    ∃ turn, Turn.Stays { connection, fanOut } turn ∧
      connection.resume fanOut false signal = turn.retry run failure := by
  have hnone : Turn.Stays { connection, fanOut } { connection, fanOut } := by
    constructor <;> rfl
  have hlost : ∀ turn : Turn, connection.isSingleShot = false →
      Turn.Stays { connection, fanOut } turn →
      connection.resume fanOut false signal = turn.loseLink run failure →
      ∃ turn, Turn.Stays { connection, fanOut } turn ∧
        connection.resume fanOut false signal = turn.retry run failure := by
    intro turn hsingle hstays hresume
    refine ⟨turn.leaveLink, hstays.trans turn.leaveLink_stays, ?_⟩
    rw [hresume, Turn.loseLink_eq_retry]
    rw [isSingleShot, hstays.config_eq]
    exact hsingle
  rcases h with hfails | ⟨hends, hsingle⟩
  · -- There is no link to leave after an attempt.
    refine ⟨_, hnone, ?_⟩
    cases hfails <;> simp [resume, hlife, Turn.attempted, Turn.bound, Turn.address]
  · cases hends with
    | readFailed hreads cause =>
        refine hlost _ hsingle hnone ?_
        cases await <;> simp_all [resume, Await.reads, Turn.received, Turn.address]
    | peerLeft hreads hempty =>
        refine hlost _ hsingle hnone ?_
        cases await <;> simp_all [resume, Await.reads, Turn.received, Turn.address]
    | @malformed codec pending data error hdata herror =>
        have hpublished := Turn.foldl_publish_stays
          (codec.drain (pending ++ data)).frames
          (({ connection, fanOut } : Turn).count (·.addReceived data.size))
        refine hlost _ hsingle ((Turn.count_stays _ _).trans hpublished) ?_
        simp only [resume, hlife, Bool.false_eq_true, if_false, Turn.received, hdata,
          Turn.decode, herror, Turn.address]
        rw [hpublished.config_eq]
        rfl
    | writeFailed cause =>
        refine hlost _ hsingle (Turn.count_stays _ (·.addLost)) ?_
        simp [resume, hlife, Turn.wrote, Turn.address]
    | writeRefused =>
        refine hlost _ hsingle (Turn.count_stays _ (·.addLost)) ?_
        simp [resume, hlife, Turn.wrote, Turn.address]

theorem cancel_takesCourse (hlife : connection.life = .running run await)
    (h : connection.Coherent) :
    connection.TakesCourse fanOut (.poll true signal)
      (({ connection, fanOut } : Turn).cancel run await) := by
  have hleft : ∀ turn : Turn, Turn.Stays { connection, fanOut } turn →
      connection.TakesCourse fanOut (.poll true signal) (turn.finish run true none) := by
    intro turn hstays
    have hgoes := turn.finish_goes run true none
    rw [hstays.state_eq, h, hlife] at hgoes
    exact ⟨_, _, .interrupted hlife signal, hstays.goes hgoes⟩
  unfold Turn.cancel
  simp only []
  -- Whether there is a link to leave makes no difference to what is reported.
  split_ifs
  · exact hleft _ (Turn.leaveLink_stays _)
  · exact hleft _ (by constructor <;> rfl)

theorem busy_takesCourse {next : Run} {await' : Await} {done : Turn}
    (hlife : connection.life = .running run await) (hbudget : next.budget = run.budget)
    (hstate : await'.state = await.state) (hstays : Turn.Stays { connection, fanOut } turn)
    (hgoes : Turn.Goes turn done [] (.running next await')) :
    connection.TakesCourse fanOut (.poll false signal) done :=
  ⟨_, _, .busy hlife signal hbudget hstate, hstays.goes hgoes⟩

theorem attempted_takesCourse (hlife : connection.life = .running run await)
    (h : connection.Coherent) (hawait : await.state = .establishing)
    (outcome : Except String Unit)
    (hfails : ∀ cause, outcome = .error cause →
      AttemptFails connection.config await signal (.establish connection.config.address cause)) :
    connection.TakesCourse fanOut (.poll false signal)
      (({ connection, fanOut } : Turn).attempted run outcome) := by
  have hstays : Turn.Stays { connection, fanOut } { connection, fanOut } := by
    constructor <;> rfl
  cases outcome with
  | error cause => exact retry_takesCourse hlife h (.inl (hfails cause rfl)) hstays
  | ok _ =>
      obtain ⟨linked, hlinked, hgoes⟩ := Turn.linkUp_goes { connection, fanOut } run
      have hstate : connection.state = .establishing := by
        rw [h, hlife]
        exact hawait
      rw [hstate] at hgoes
      exact ⟨_, _, .linked hlife signal hawait hlinked, hgoes⟩

theorem bound_takesCourse (hlife : connection.life = .running run .binding)
    (h : connection.Coherent) (outcome : Except String (Option SocketAddress)) :
    connection.TakesCourse fanOut (.poll false (.bound outcome))
      (({ connection, fanOut } : Turn).bound run outcome) := by
  have hstays : Turn.Stays { connection, fanOut } { connection, fanOut } := by
    constructor <;> rfl
  cases outcome with
  | error cause => exact retry_takesCourse hlife h (.inl (.unbound cause)) hstays
  | ok localAddress =>
      have hseek : ∀ turn : Turn, Turn.Stays { connection, fanOut } turn →
          connection.TakesCourse fanOut (.poll false (.bound (.ok localAddress)))
            (turn.seekLink { run with listening := true }) := by
        intro turn hstays
        have hstate : turn.connection.state = .establishing := by
          rw [hstays.state_eq, h, hlife]
          rfl
        obtain ⟨await, hawait, hgoes⟩ := Turn.seekLink_goes hstate { run with listening := true }
        apply busy_takesCourse hlife _ hawait hstays hgoes
        rfl
      -- An address that is known is reported, and that is all it is good for.
      cases localAddress with
      | none => exact hseek _ hstays
      | some address =>
          apply hseek
          constructor <;> simp [Effect.transition?]

/-- The link of a connection has been read, whatever is done with the bytes. -/
theorem received_takesCourse (hlife : connection.life = .running run await)
    (h : connection.Coherent) (hreads : await.reads = true)
    (outcome : Except String ByteArray) (next : Turn → ByteArray → Turn)
    (hnext : ∀ data turn, outcome = .ok data → data.isEmpty = false →
      Turn.Stays { connection, fanOut } turn →
      connection.TakesCourse fanOut (.poll false (.received (.ok data))) (next turn data)) :
    connection.TakesCourse fanOut (.poll false (.received outcome))
      (({ connection, fanOut } : Turn).received run outcome next) := by
  have hstays : Turn.Stays { connection, fanOut } { connection, fanOut } := by
    constructor <;> rfl
  unfold Turn.received
  cases outcome with
  | error cause => exact loseLink_takesCourse hlife h (.readFailed hreads cause) hstays
  | ok data =>
      simp only []
      split_ifs with hempty
      · exact loseLink_takesCourse hlife h (.peerLeft hreads hempty) hstays
      · rw [Bool.not_eq_true] at hempty
        exact hnext data _ rfl hempty (Turn.count_stays _ _)

theorem decode_takesCourse {codec : LinkCodec} {pending data : ByteArray}
    (hlife : connection.life = .running run (.reading codec pending)) (h : connection.Coherent)
    (hdata : data.isEmpty = false) (hstays : Turn.Stays { connection, fanOut } turn) :
    connection.TakesCourse fanOut (.poll false (.received (.ok data)))
      (turn.decode run codec (pending ++ data)) := by
  have hpublished : Turn.Stays { connection, fanOut }
      ((codec.drain (pending ++ data)).frames.foldl Turn.publish turn) :=
    hstays.trans (Turn.foldl_publish_stays _ turn)
  -- An error is only looked at when everything before it has been published.
  unfold Turn.decode
  simp only []
  split
  next error herror =>
    rw [Turn.address, hpublished.config_eq]
    exact loseLink_takesCourse hlife h (.malformed hdata herror) hpublished
  next =>
    have hactive := hpublished.state_eq
    rw [h, hlife] at hactive
    apply busy_takesCourse hlife rfl _ hpublished (Turn.read_goes hactive run _ _)
    rfl

theorem takeFrame_takesCourse {codec : LinkCodec}
    (hlife : connection.life = .running run (.watching codec)) (h : connection.Coherent) :
    connection.TakesCourse fanOut (.poll false .woken)
      (({ connection, fanOut } : Turn).takeFrame run codec) := by
  have hactive : connection.state = .active := by
    rw [h, hlife]
    rfl
  have hnothing : connection.TakesCourse fanOut (.poll false .woken) { connection, fanOut } :=
    takesCourse_nothing h (by simp [Act.isRun]) (by constructor <;> rfl)
  unfold Turn.takeFrame
  simp only []
  split
  next => exact hnothing
  next sink hpath =>
    split
    next => exact hnothing
    next hpop =>
      obtain ⟨queue, hclosed⟩ := FanOut.closed_of_pop hpop
      have hstays := Turn.leaveLink_stays { connection, fanOut }
      have hgoes := Turn.finish_goes (Turn.leaveLink { connection, fanOut }) run false none
      rw [hstays.state_eq, hactive] at hgoes
      exact ⟨_, _, .queueClosed hlife ⟨sink, queue, hpath, hclosed⟩, hstays.goes hgoes⟩
    next frame rest hpop =>
      have hstays : Turn.Stays { connection, fanOut }
          (Turn.reportDrops { connection, fanOut := rest }) :=
        Turn.Stays.trans (by constructor <;> rfl) (Turn.reportDrops_stays _)
      obtain ⟨await, hawait, hgoes⟩ :=
        Turn.send_goes (hstays.state_eq.trans hactive) run codec frame
      exact busy_takesCourse hlife rfl hawait hstays hgoes

theorem wrote_takesCourse {codec : LinkCodec} {frame : Frame} {size : Nat} {rest : ByteArray}
    (hlife : connection.life = .running run (.writing codec frame size rest))
    (h : connection.Coherent) (outcome : Except String Nat) :
    connection.TakesCourse fanOut (.poll false (.wrote outcome))
      (({ connection, fanOut } : Turn).wrote run codec frame size rest outcome) := by
  have hlost := Turn.count_stays { connection, fanOut } (·.addLost)
  unfold Turn.wrote
  split
  next cause => exact loseLink_takesCourse hlife h (.writeFailed cause) hlost
  next => exact loseLink_takesCourse hlife h .writeRefused hlost
  next taken _ =>
    have hactive : ({ connection, fanOut } : Turn).connection.state = .active := by
      rw [h, hlife]
      rfl
    obtain ⟨await, hawait, hgoes⟩ :=
      Turn.write_goes hactive run codec frame size (rest.extract taken rest.size)
    exact ⟨_, _, .busy hlife _ rfl hawait, hgoes⟩

theorem resume_takesCourse (hlife : connection.life = .running run await)
    (h : connection.Coherent) (signal : Signal) :
    connection.TakesCourse fanOut (.poll false signal)
      (connection.resume fanOut false signal) := by
  have hstays : Turn.Stays { connection, fanOut } { connection, fanOut } := by
    constructor <;> rfl
  unfold resume
  simp only [hlife, Bool.false_eq_true, if_false]
  split
  next outcome =>
    apply attempted_takesCourse hlife h rfl
    rintro cause rfl
    exact .undialled cause
  next => exact retry_takesCourse hlife h (.inl .timedOut) hstays
  next outcome => exact bound_takesCourse hlife h outcome
  next outcome =>
    apply attempted_takesCourse hlife h rfl
    rintro cause rfl
    exact .unaccepted cause
  next codec pending outcome =>
    apply received_takesCourse hlife h rfl
    intro data turn _ hdata hturn
    exact decode_takesCourse hlife h hdata hturn
  next codec outcome =>
    apply received_takesCourse hlife h rfl
    intro data turn _ _ hturn
    have hactive := hturn.state_eq
    rw [h, hlife] at hactive
    apply busy_takesCourse hlife rfl _ hturn (Turn.watch_goes hactive run codec)
    rfl
  next codec => exact takeFrame_takesCourse hlife h
  next codec frame size rest outcome => exact wrote_takesCourse hlife h outcome
  next =>
    obtain ⟨await, hawait, hgoes⟩ := Turn.establish_goes { connection, fanOut } run
    have hstate : connection.state = .reconnecting := by
      rw [h, hlife]
      rfl
    rw [hstate] at hgoes
    exact ⟨_, _, .retried hlife hawait, hgoes⟩
  -- Any other signal is not for what the connection waits for.
  next => exact takesCourse_nothing h (by simp [Act.isRun]) hstays

/-- Whatever happens to a connection, one of the courses is taken. -/
theorem act_takesCourse (h : connection.Coherent) (fanOut : FanOut) (act : Act) :
    connection.TakesCourse fanOut act (connection.act fanOut act) := by
  cases act with
  | run token cancelled => exact start_takesCourse h token cancelled
  | close => exact close_takesCourse h
  | poll cancelled signal =>
      cases hlife : connection.life with
      | running run await =>
          cases cancelled with
          | true =>
              have hcancel : connection.act fanOut (.poll true signal) =
                  ({ connection, fanOut } : Turn).cancel run await := by
                simp only [Connection.act, resume, hlife, if_true]
              rw [hcancel]
              exact cancel_takesCourse hlife h
          | false => exact resume_takesCourse hlife h signal
      | unstarted =>
          refine takesCourse_nothing h (by simp [Act.isRun]) ?_
          simp only [Connection.act, resume, hlife]
          constructor <;> rfl
      | ended failure =>
          refine takesCourse_nothing h (by simp [Act.isRun]) ?_
          simp only [Connection.act, resume, hlife]
          constructor <;> rfl

theorem act_coherent (connection : Connection) (h : connection.Coherent) (fanOut : FanOut)
    (act : Act) : (connection.act fanOut act).connection.Coherent := by
  obtain ⟨passed, life, -, hgoes⟩ := act_takesCourse h fanOut act
  rw [Coherent, hgoes.life_eq]
  exact hgoes.state_eq

theorem act_of_ended {failure : Option ConnectionError}
    (hlife : connection.life = .ended failure) (fanOut : FanOut) (act : Act) :
    (connection.act fanOut act).connection.life = .ended failure := by
  cases act <;> simp [Connection.act, start, resume, close, hlife]

end Connection

end LiveRelay
