import LiveRelay.Proofs.Connection.Course

/-! # How a run begins and ends

Of what a step reports and asks for, `Mark` keeps the beginning and the end of a run and the
moment at which its listener is let go. `act_passes` says which of them come of an act: a run
that begins ends at most once, and lets go of its listener right before if it has one.
-/

namespace LiveRelay

/-- What is seen of a run from outside. -/
inductive Mark where
  | started
  | stopped
  /-- The listener has been let go. -/
  | released
  deriving DecidableEq

/-- The mark that an event leaves. -/
def EventKind.mark? : EventKind → Option Mark
  | started => some .started
  | stopped _ => some .stopped
  | _ => none

/-- The mark that an effect leaves. -/
def Effect.mark? : Effect → Option Mark
  | emit kind => kind.mark?
  | request .unbind => some .released
  | request _ => none

/-- Whether the listener is bound when this is answered. -/
def Await.binds : Await → Signal → Bool
  | .binding, .bound (.ok _) => true
  | _, _ => false

/-- The marks that the end of a run leaves. The listener goes first, if there is one. -/
def Run.endMarks (run : Run) : List Mark :=
  (if run.listening then [.released] else []) ++ [.stopped]

namespace Turn

/-- The marks that a turn leaves, in order. -/
def marks (turn : Turn) : List Mark := turn.effects.filterMap Effect.mark?

/-- From `before` to `after` no run has begun or ended. -/
structure Quiet (before after : Turn) : Prop where
  marks_eq : after.marks = before.marks
  path_eq : after.connection.path = before.connection.path

section Quiet

variable {turn before middle after : Turn}

theorem Quiet.trans (first : Quiet before middle) (second : Quiet middle after) :
    Quiet before after :=
  ⟨second.marks_eq.trans first.marks_eq, second.path_eq.trans first.path_eq⟩

theorem marks_emit (turn : Turn) (kind : EventKind) :
    (turn.emit kind).marks = turn.marks ++ (Effect.mark? (.emit kind)).toList := by
  simp only [marks, emit, List.filterMap_append, List.filterMap_cons]
  cases Effect.mark? (.emit kind) <;> rfl

theorem marks_request (turn : Turn) (request : Request) :
    (turn.request request).marks = turn.marks ++ (Effect.mark? (.request request)).toList := by
  simp only [marks, Turn.request, List.filterMap_append, List.filterMap_cons]
  cases Effect.mark? (.request request) <;> rfl

theorem emit_quiet (turn : Turn) {kind : EventKind} (h : Effect.mark? (.emit kind) = none) :
    Quiet turn (turn.emit kind) := by
  refine ⟨?_, rfl⟩
  rw [marks_emit, h]
  exact List.append_nil _

theorem update_emit_quiet (turn : Turn) {change : Connection → Connection}
    (hpath : (change turn.connection).path = turn.connection.path) {kind : EventKind}
    (h : Effect.mark? (.emit kind) = none) : Quiet turn ((turn.update change).emit kind) := by
  have hupdate : Quiet turn (turn.update change) := ⟨rfl, hpath⟩
  exact hupdate.trans (emit_quiet _ h)

theorem request_quiet (turn : Turn) {request : Request}
    (h : Effect.mark? (.request request) = none) : Quiet turn (turn.request request) := by
  refine ⟨?_, rfl⟩
  rw [marks_request, h]
  exact List.append_nil _

theorem wait_quiet (turn : Turn) {request : Request}
    (h : Effect.mark? (.request request) = none) (run : Run) (await : Await) :
    Quiet turn ((turn.request request).suspend run await) :=
  (request_quiet turn h).trans ⟨rfl, rfl⟩

theorem count_quiet (turn : Turn) (change : ConnectionStats → ConnectionStats) :
    Quiet turn (turn.count change) := ⟨rfl, rfl⟩

theorem transition_quiet (turn : Turn) (target : ConnectionState) (attempt : Nat)
    (failure : Option ConnectionError) : Quiet turn (turn.transition target attempt failure) :=
  update_emit_quiet _ rfl rfl

theorem reportDrops_quiet (turn : Turn) : Quiet turn turn.reportDrops := by
  unfold reportDrops
  split
  next => exact ⟨rfl, rfl⟩
  next =>
    simp only []
    split_ifs
    · exact update_emit_quiet _ rfl rfl
    · exact ⟨rfl, rfl⟩

theorem leaveLink_quiet (turn : Turn) : Quiet turn turn.leaveLink :=
  turn.reportDrops_quiet.trans (request_quiet _ rfl)

theorem publish_quiet (turn : Turn) (frame : Frame) : Quiet turn (turn.publish frame) := by
  unfold publish
  simp only []
  split_ifs <;> exact ⟨rfl, rfl⟩

theorem foldl_publish_quiet (frames : List Frame) (turn : Turn) :
    Quiet turn (frames.foldl publish turn) := by
  induction frames generalizing turn with
  | nil => exact ⟨rfl, rfl⟩
  | cons frame frames ih => exact (turn.publish_quiet frame).trans (ih _)

end Quiet

/-! ## Where a step of a run leads -/

/-- From `before` a step of the run has led to `after`: the connection waits for something, or
the run has ended. The run has the listener that it had, unless that was bound in the step. -/
inductive Leads (before : Turn) (run : Run) (binds : Bool) (after : Turn) : Prop
  | waits {next : Run} {await : Await} (hquiet : Quiet before after)
      (hlife : after.connection.life = .running next await) (htoken : next.token = run.token)
      (hlistening : next.listening = (run.listening || binds))
  | ends {failure : Option ConnectionError} (hbinds : binds = false)
      (hmarks : after.marks = before.marks ++ run.endMarks)
      (hpath : after.connection.path = before.connection.path)
      (hlife : after.connection.life = .ended failure)
      (haddress : after.connection.localAddress = none)

section Leads

variable {turn before middle after : Turn} {run : Run} {binds : Bool}

theorem Quiet.leads (first : Quiet before middle) (second : Leads middle run binds after) :
    Leads before run binds after := by
  cases second with
  | waits hquiet hlife htoken hlistening =>
      exact .waits (first.trans hquiet) hlife htoken hlistening
  | ends hbinds hmarks hpath hlife haddress =>
      exact .ends hbinds (hmarks.trans (by rw [first.marks_eq])) (hpath.trans first.path_eq)
        hlife haddress

theorem finish_leads (turn : Turn) (run : Run) (cancelled : Bool)
    (failure : Option ConnectionError) :
    Leads turn run false (turn.finish run cancelled failure) := by
  refine .ends rfl ?_ ?_ rfl ?_
  · unfold finish
    cases cancelled <;> cases hlistening : run.listening <;>
      simp [marks, emit, transition, update, Turn.request, Run.endMarks, hlistening] <;> rfl
  · unfold finish
    cases cancelled <;> cases run.listening <;> rfl
  · unfold finish
    cases cancelled <;> cases run.listening <;> rfl

theorem suspend_leads (turn : Turn) (run : Run) (await : Await) :
    Leads turn run false (turn.suspend run await) :=
  .waits ⟨rfl, rfl⟩ rfl rfl (Bool.or_false _).symm

theorem seekLink_waits (turn : Turn) (run : Run) :
    Quiet turn (turn.seekLink run) ∧
      ∃ await, (turn.seekLink run).connection.life = .running run await := by
  unfold seekLink
  split
  next => exact ⟨wait_quiet _ rfl _ _, _, rfl⟩
  next =>
    split_ifs
    · exact ⟨wait_quiet _ rfl _ _, _, rfl⟩
    · exact ⟨wait_quiet _ rfl _ _, _, rfl⟩

theorem seekLink_leads (turn : Turn) (run : Run) : Leads turn run false (turn.seekLink run) := by
  obtain ⟨hquiet, await, hlife⟩ := turn.seekLink_waits run
  exact .waits hquiet hlife rfl (Bool.or_false _).symm

theorem establish_leads (turn : Turn) (run : Run) : Leads turn run false (turn.establish run) :=
  (transition_quiet _ _ _ _).leads (seekLink_leads _ run)

theorem retry_leads (turn : Turn) (run : Run) (failure : ConnectionError) :
    Leads turn run false (turn.retry run failure) := by
  unfold retry
  apply (turn.transition_quiet .reconnecting run.budget.used (some failure)).leads
  split
  next => exact finish_leads _ _ _ _
  next => exact .waits (wait_quiet _ rfl _ _) rfl rfl (Bool.or_false _).symm

theorem loseLink_leads (turn : Turn) (run : Run) (failure : ConnectionError) :
    Leads turn run false (turn.loseLink run failure) := by
  unfold loseLink
  apply turn.leaveLink_quiet.leads
  simp only []
  split_ifs
  · exact finish_leads _ _ _ _
  · exact retry_leads _ _ _

theorem read_leads (turn : Turn) (run : Run) (codec : LinkCodec) (pending : ByteArray) :
    Leads turn run false (turn.read run codec pending) :=
  (request_quiet _ rfl).leads (suspend_leads _ _ _)

theorem watch_leads (turn : Turn) (run : Run) (codec : LinkCodec) :
    Leads turn run false (turn.watch run codec) :=
  (request_quiet _ rfl).leads (suspend_leads _ _ _)

theorem linkUp_leads (turn : Turn) (run : Run) : Leads turn run false (turn.linkUp run) := by
  have hup : Quiet turn ((turn.count (·.addLink)).transition .active 0 none) :=
    (turn.count_quiet _).trans (transition_quiet _ _ _ _)
  unfold linkUp
  apply hup.leads
  simp only []
  split
  next => exact .waits (wait_quiet _ rfl _ _) rfl rfl (Bool.or_false _).symm
  next => exact .waits (wait_quiet _ rfl _ _) rfl rfl (Bool.or_false _).symm

theorem attempted_leads (turn : Turn) (run : Run) (outcome : Except String Unit) :
    Leads turn run false (turn.attempted run outcome) := by
  cases outcome with
  | error cause => exact retry_leads _ _ _
  | ok _ => exact linkUp_leads _ _

theorem bound_leads (turn : Turn) (run : Run) (outcome : Except String (Option SocketAddress)) :
    Leads turn run (Await.binding.binds (.bound outcome)) (turn.bound run outcome) := by
  cases outcome with
  | error cause => exact retry_leads _ _ _
  | ok localAddress =>
      have hseek : ∀ {middle : Turn}, Quiet turn middle →
          Leads turn run true (middle.seekLink { run with listening := true }) := by
        intro middle hquiet
        obtain ⟨hseeks, await, hlife⟩ := middle.seekLink_waits { run with listening := true }
        exact .waits (hquiet.trans hseeks) hlife rfl (Bool.or_true _).symm
      cases localAddress with
      | none => exact hseek ⟨rfl, rfl⟩
      | some address =>
          apply hseek
          exact update_emit_quiet _ rfl rfl

theorem write_leads (turn : Turn) (run : Run) (codec : LinkCodec) (frame : Frame) (size : Nat)
    (rest : ByteArray) : Leads turn run false (turn.write run codec frame size rest) := by
  unfold write
  split_ifs
  · exact (turn.count_quiet _).leads (watch_leads _ _ _)
  · exact (request_quiet _ rfl).leads (suspend_leads _ _ _)

theorem send_leads (turn : Turn) (run : Run) (codec : LinkCodec) (frame : Frame) :
    Leads turn run false (turn.send run codec frame) := by
  unfold send
  simp only []
  split
  next => exact watch_leads _ _ _
  next => exact write_leads _ _ _ _ _ _

theorem decode_leads (turn : Turn) (run : Run) (codec : LinkCodec) (bytes : ByteArray) :
    Leads turn run false (turn.decode run codec bytes) := by
  unfold decode
  apply (foldl_publish_quiet (codec.drain bytes).frames turn).leads
  simp only []
  split
  next => exact loseLink_leads _ _ _
  next => exact read_leads _ _ _ _

theorem received_leads (turn : Turn) (run : Run) (outcome : Except String ByteArray)
    {next : Turn → ByteArray → Turn} (hnext : ∀ turn data, Leads turn run false (next turn data)) :
    Leads turn run false (turn.received run outcome next) := by
  unfold received
  split
  next => exact loseLink_leads _ _ _
  next data =>
    split_ifs
    · exact loseLink_leads _ _ _
    · exact (turn.count_quiet _).leads (hnext _ data)

theorem wrote_leads (turn : Turn) (run : Run) (codec : LinkCodec) (frame : Frame) (size : Nat)
    (rest : ByteArray) (outcome : Except String Nat) :
    Leads turn run false (turn.wrote run codec frame size rest outcome) := by
  unfold wrote
  split
  next => exact (turn.count_quiet _).leads (loseLink_leads _ _ _)
  next => exact (turn.count_quiet _).leads (loseLink_leads _ _ _)
  next => exact write_leads _ _ _ _ _ _

theorem takeFrame_leads {codec : LinkCodec}
    (hlife : turn.connection.life = .running run (.watching codec)) :
    Leads turn run false (turn.takeFrame run codec) := by
  have hrests : Leads turn run false turn :=
    .waits ⟨rfl, rfl⟩ hlife rfl (Bool.or_false _).symm
  unfold takeFrame
  split
  next => exact hrests
  next =>
    split
    next => exact hrests
    next => exact turn.leaveLink_quiet.leads (finish_leads _ _ _ _)
    next frame fanOut _ =>
      have htaken : Quiet turn { turn with fanOut } := ⟨rfl, rfl⟩
      exact (htaken.trans (reportDrops_quiet _)).leads (send_leads _ _ _ _)

theorem cancel_leads (turn : Turn) (run : Run) (await : Await) :
    Leads turn run false (turn.cancel run await) := by
  unfold cancel
  simp only []
  split_ifs
  · exact turn.leaveLink_quiet.leads (finish_leads _ _ _ _)
  · exact finish_leads _ _ _ _

end Leads

end Turn

namespace Connection

variable {connection : Connection} {run : Run} {await : Await}

theorem resume_leads (hlife : connection.life = .running run await) (fanOut : FanOut)
    (signal : Signal) :
    Turn.Leads { connection, fanOut } run (await.binds signal)
      (connection.resume fanOut false signal) := by
  have hrests : Turn.Leads { connection, fanOut } run false { connection, fanOut } :=
    .waits ⟨rfl, rfl⟩ hlife rfl (Bool.or_false _).symm
  unfold resume
  simp only [hlife, Bool.false_eq_true, if_false]
  split
  next => exact Turn.attempted_leads _ _ _
  next => exact Turn.retry_leads _ _ _
  next => exact Turn.bound_leads _ _ _
  next => exact Turn.attempted_leads _ _ _
  next codec pending _ =>
    exact Turn.received_leads _ _ _ fun _ data => Turn.decode_leads _ _ codec (pending ++ data)
  next codec _ => exact Turn.received_leads _ _ _ fun _ _ => Turn.watch_leads _ _ codec
  next => exact Turn.takeFrame_leads hlife
  next => exact Turn.wrote_leads _ _ _ _ _ _ _
  next => exact Turn.establish_leads _ _
  next =>
    have hbinds : await.binds signal = false := by
      unfold Await.binds
      split <;> grind
    rw [hbinds]
    exact hrests

/-- What comes of an act for the run of a connection: the marks that it leaves, and how far the
connection has come then. -/
inductive Passage : Life → Act → List Mark → Life → Prop
  /-- The act is not for a connection that has come this far. -/
  | rests {life : Life} {act : Act}
      (hunstarted : life = .unstarted → ∃ cancelled signal, act = .poll cancelled signal)
      (hrunning : ∀ run await, life = .running run await →
        ∀ cancelled signal, act ≠ .poll cancelled signal) : Passage life act [] life
  | begins {token : Token} {run : Run} {await : Await} (htoken : run.token = token)
      (hlistening : run.listening = false) :
      Passage .unstarted (.run token false) [.started] (.running run await)
  | beginsInVain (token : Token) :
      Passage .unstarted (.run token true) [.started, .stopped] (.ended none)
  | closes : Passage .unstarted .close [] (.ended none)
  | goesOn {run next : Run} {await await' : Await} {signal : Signal}
      (htoken : next.token = run.token)
      (hlistening : next.listening = (run.listening || await.binds signal)) :
      Passage (.running run await) (.poll false signal) [] (.running next await')
  | ends {run : Run} {await : Await} {cancelled : Bool} {signal : Signal}
      {failure : Option ConnectionError} (hbinds : cancelled = true ∨ await.binds signal = false) :
      Passage (.running run await) (.poll cancelled signal) run.endMarks (.ended failure)

/-- A connection without a run has no listener that could have an address. -/
def IsTidy (connection : Connection) : Prop :=
  (∀ run await, connection.life ≠ .running run await) → connection.localAddress = none

/-- An act has done this for the run of a connection. -/
structure Passes (connection : Connection) (act : Act) (turn : Turn) : Prop where
  passage : Passage connection.life act turn.marks turn.connection.life
  path_eq : turn.connection.path = connection.path
  isTidy : connection.IsTidy → turn.connection.IsTidy

/-- A step that the run is allowed to take. -/
theorem passes_of_leads {fanOut : FanOut} {signal : Signal} {turn : Turn}
    (hlife : connection.life = .running run await)
    (hleads : Turn.Leads { connection, fanOut } run (await.binds signal) turn) :
    connection.Passes (.poll false signal) turn := by
  cases hleads with
  | waits hquiet hnext htoken hlistening =>
      constructor
      case passage =>
        rw [hquiet.marks_eq, hlife, hnext]
        exact .goesOn htoken hlistening
      case path_eq => exact hquiet.path_eq
      case isTidy =>
        intro _ hwithout
        exact absurd hnext (hwithout _ _)
  | ends hbinds hmarks hpath hended haddress =>
      constructor
      case passage =>
        rw [hmarks, hlife, hended]
        exact .ends (.inr hbinds)
      case path_eq => exact hpath
      case isTidy => exact fun _ _ => haddress

/-- A run that is told to stop ends with the step. -/
theorem passes_cancel {fanOut : FanOut} (signal : Signal)
    (hlife : connection.life = .running run await) :
    connection.Passes (.poll true signal)
      (({ connection, fanOut } : Turn).cancel run await) := by
  have hended : (({ connection, fanOut } : Turn).cancel run await).connection.life =
      .ended none := rfl
  cases Turn.cancel_leads { connection, fanOut } run await with
  | waits _ hnext =>
      rw [hended] at hnext
      cases hnext
  | ends _ hmarks hpath _ haddress =>
      constructor
      case passage =>
        rw [hmarks, hlife, hended]
        exact .ends (.inl rfl)
      case path_eq => exact hpath
      case isTidy => exact fun _ _ => haddress

/-- A connection that does not move. -/
theorem passes_rest {fanOut : FanOut} {act : Act} {turn : Turn}
    (hquiet : Turn.Quiet { connection, fanOut } turn)
    (hlife : turn.connection.life = connection.life)
    (haddress : turn.connection.localAddress = connection.localAddress)
    (hunstarted : connection.life = .unstarted → ∃ cancelled signal, act = .poll cancelled signal)
    (hrunning : ∀ run await, connection.life = .running run await →
      ∀ cancelled signal, act ≠ .poll cancelled signal) : connection.Passes act turn where
  passage := by
    rw [hquiet.marks_eq, hlife]
    exact .rests hunstarted hrunning
  path_eq := hquiet.path_eq
  isTidy := by
    intro htidy hwithout
    rw [hlife] at hwithout
    exact haddress.trans (htidy hwithout)

theorem start_passes (hlife : connection.life = .unstarted) (fanOut : FanOut) (token : Token)
    (cancelled : Bool) :
    connection.Passes (.run token cancelled) (connection.start fanOut token cancelled) := by
  have hstart : (({ connection, fanOut } : Turn).emit .started).marks = [.started] := rfl
  unfold start
  simp only [hlife]
  split_ifs with hcancelled
  · subst hcancelled
    constructor
    case passage =>
      rw [hlife]
      exact .beginsInVain token
    case path_eq => rfl
    case isTidy => exact fun _ _ => rfl
  · obtain rfl : cancelled = false := by simpa using hcancelled
    let run : Run := { token, budget := { policy := connection.config.reconnect } }
    have htransition := (({ connection, fanOut } : Turn).emit .started).transition_quiet
      .establishing run.budget.used none
    obtain ⟨hseek, await, hnext⟩ := Turn.seekLink_waits
      ((({ connection, fanOut } : Turn).emit .started).transition .establishing
        run.budget.used none) run
    have hquiet := htransition.trans hseek
    constructor
    case passage =>
      have hmarks : (Turn.establish (({ connection, fanOut } : Turn).emit .started) run).marks =
          [.started] := hquiet.marks_eq.trans hstart
      have hlife' : (Turn.establish (({ connection, fanOut } : Turn).emit .started)
          run).connection.life = .running run await := hnext
      rw [hlife, hmarks, hlife']
      exact .begins rfl rfl
    case path_eq => exact hquiet.path_eq
    case isTidy =>
      intro _ hwithout
      exact absurd hnext (hwithout _ _)

/-- Whatever happens to a connection, its run goes one of these ways. -/
theorem act_passes (connection : Connection) (fanOut : FanOut) (act : Act) :
    connection.Passes act (connection.act fanOut act) := by
  cases hlife : connection.life with
  | unstarted =>
      cases act with
      | run token cancelled => exact start_passes hlife fanOut token cancelled
      | poll cancelled signal =>
          simp only [Connection.act, resume, hlife]
          exact passes_rest ⟨rfl, rfl⟩ rfl rfl (fun _ => ⟨_, _, rfl⟩) (by simp [hlife])
      | close =>
          simp only [Connection.act, close, hlife]
          constructor
          case passage =>
            rw [hlife]
            exact .closes
          case path_eq => rfl
          case isTidy => exact fun htidy _ => htidy (by simp [hlife])
  | running run await =>
      cases act with
      | run token cancelled =>
          simp only [Connection.act, start, hlife]
          exact passes_rest ⟨rfl, rfl⟩ rfl rfl (by simp [hlife]) (by simp)
      | poll cancelled signal =>
          cases cancelled with
          | true =>
              simp only [Connection.act, resume, hlife, if_true]
              exact passes_cancel signal hlife
          | false => exact passes_of_leads hlife (resume_leads hlife fanOut signal)
      | close =>
          simp only [Connection.act, close, hlife]
          have hquiet : Turn.Quiet { connection, fanOut }
              { connection := { connection with closeRequested := true }, fanOut } := ⟨rfl, rfl⟩
          rw [hlife] at hquiet
          exact passes_rest hquiet hlife.symm rfl (by simp [hlife]) (by simp)
  | ended failure =>
      have hrest : ∀ turn : Turn, Turn.Quiet { connection, fanOut } turn →
          turn.connection.life = connection.life →
          turn.connection.localAddress = connection.localAddress → connection.Passes act turn :=
        fun turn hquiet hsame haddress =>
          passes_rest hquiet hsame haddress (by simp [hlife]) (by simp [hlife])
      cases act with
      | run token cancelled =>
          simp only [Connection.act, start, hlife]
          exact hrest _ ⟨rfl, rfl⟩ rfl rfl
      | poll cancelled signal =>
          simp only [Connection.act, resume, hlife]
          exact hrest _ ⟨rfl, rfl⟩ rfl rfl
      | close =>
          simp only [Connection.act, close, hlife]
          exact hrest _ ⟨rfl, rfl⟩ hlife.symm rfl

/-- A connection that has ended shows nothing any more. -/
theorem effects_of_ended {failure : Option ConnectionError}
    (h : connection.life = .ended failure) (fanOut : FanOut) (act : Act) :
    (connection.act fanOut act).effects = [] := by
  cases act with
  | run token cancelled => simp only [Connection.act, Connection.start, h]
  | poll cancelled signal => simp only [Connection.act, Connection.resume, h]
  | close => simp only [Connection.act, Connection.close, h]

/-- What is woken leaves a mark only when it runs. -/
theorem Passage.running {before after : Life} {cancelled : Bool} {signal : Signal}
    {marks : List Mark} (h : Passage before (.poll cancelled signal) marks after)
    (hmarks : marks ≠ []) : ∃ run await, before = .running run await := by
  cases h with
  | rests => exact absurd rfl hmarks
  | goesOn => exact ⟨_, _, rfl⟩
  | ends => exact ⟨_, _, rfl⟩

/-- A run stops only when it ends. -/
theorem Passage.ended_of_stopped {before after : Life} {act : Act} {marks : List Mark}
    (h : Passage before act marks after) (hstopped : .stopped ∈ marks) :
    ∃ failure, after = .ended failure := by
  cases h with
  | rests => cases hstopped
  | begins => simp at hstopped
  | beginsInVain => exact ⟨none, rfl⟩
  | closes => cases hstopped
  | goesOn => cases hstopped
  | @ends run await cancelled signal failure => exact ⟨failure, rfl⟩

theorem Passage.of_close {before after : Life} {marks : List Mark}
    (h : Passage before .close marks after) : marks = [] := by
  cases h <;> rfl

end Connection

end LiveRelay
