import LiveRelay.Proofs.Relay.Tree

/-! # The deeds of a relay

A move can come to many things: to close a relay is to close every connection in it, one
after the other. `Deed` lists the single things that a relay does, and `step_deeds` says that
every move is a chain of them. What each deed keeps is kept by every run (`stepAll_induction`).
-/

namespace LiveRelay

/-- Whether it is only for the log or for the clock. -/
def Occurrence.isNote : Occurrence → Bool
  | record _ => true
  | deadline _ _ => true
  | _ => false

/-- The connection is a part of the component, or the component itself. -/
def Component.Covers : Component → ConnectionId → Prop
  | .group .relay, _ => True
  | .group (.server server), id => id.server = server
  | .group (.endpoint server endpoint), id => id.server = server ∧ id.endpoint = endpoint
  | .connection other, id => other = id

namespace Relay

/-- The relay when a group has begun in the task at `place`: every part of it has a task. -/
def opened (relay : Relay) (place : Nat) (group : Group) (token : Token) : Relay :=
  let relay := { relay with hasRun := relay.hasRun || decide (group = Group.relay) }
  let childToken := if group = Group.relay then .relay else token
  let (children, spawned) := relay.spawn (relay.childrenOf group) childToken
  spawned.setPhase place (.joining children 0)

/-- A connection begins in the task at `place`. -/
def begun (relay : Relay) (place : Nat) (id : ConnectionId) (token : Token) : Change :=
  let change := relay.act id (.run token (relay.isCancelled token))
  ⟨change.relay.setPhase place .driving, change.occurrences⟩

/-- A group ends in the task at `place`. -/
def ended (relay : Relay) (place : Nat) (group : Group) (failures : Nat) : Change :=
  let path := (relay.pathOf? group).getD path
  ⟨relay.setPhase place (.done ((groupFailure? group path failures).map .relay)),
    [.event ⟨path, .stopped (stopText? group path failures)⟩]⟩

/-- What is to be stopped at the end of a group has been stopped. -/
def HasStopped (relay : Relay) : Group → Prop
  | .relay => relay.isCancelled .relay = true
  | .server _ => True
  | .endpoint server endpoint =>
      ∀ value, relay.endpoint? server endpoint = some value → value.fanOut.closed = true

/-- A task goes on to this phase, and nothing else happens. -/
inductive Settles (relay : Relay) : Task → TaskPhase → Prop
  /-- The relay has been run before. -/
  | refuses {token : Token} (hrun : relay.hasRun = true) :
      Settles relay ⟨.group .relay, token, .ready⟩ (.done (some (.relay .alreadyRunning)))
  /-- There is no such group. -/
  | strays {group : Group} {token : Token} (hpath : relay.pathOf? group = none) :
      Settles relay ⟨.group group, token, .ready⟩ (.done none)
  /-- The connection has been run before, or closed. -/
  | skips {id : ConnectionId} {token : Token}
      (hlife : ∀ connection, relay.connection? id = some connection →
        connection.life ≠ .unstarted) :
      Settles relay ⟨.connection id, token, .ready⟩ (.done none)
  | joins {group : Group} {token : Token} {children : List Nat} {failures child : Nat}
      (hdone : (relay.phaseOf child).isDone = true) (failures' : Nat) :
      Settles relay ⟨.group group, token, .joining children failures⟩
        (.joining (children.erase child) failures')
  | arrives {id : ConnectionId} {token : Token} {connection : Connection}
      {failure : Option ConnectionError} (hconnection : relay.connection? id = some connection)
      (hlife : connection.life = .ended failure) :
      Settles relay ⟨.connection id, token, .driving⟩ (.done (failure.map .connection))

/-- One thing that a relay does in a move, and what comes of it. -/
inductive Deed (relay : Relay) : Move → Change → Prop
  | notes {move : Move} {occurrences : List Occurrence}
      (h : ∀ occurrence ∈ occurrences, occurrence.isNote = true) :
      Deed relay move ⟨relay, occurrences⟩
  | cancels {move : Move} (token : Token) : Deed relay move ⟨relay.cancel token, []⟩
  | closesFanOut {move : Move} (server endpoint : Nat) :
      Deed relay move ⟨relay.closeFanOut server endpoint, []⟩
  | signals {id : ConnectionId} {connection : Connection}
      (h : relay.connection? id = some connection) (signal : Signal) :
      Deed relay (.signal id signal)
        (relay.act id (.poll (relay.interrupts connection) signal))
  | closes {component : Component} {id : ConnectionId} (h : component.Covers id) :
      Deed relay (.close component) (relay.act id .close)
  | runs (component : Component) (token : Token) :
      Deed relay (.run component token) ⟨(relay.spawn [component] token).2, []⟩
  | settles {move : Move} {place : Nat} {task : Task} {phase : TaskPhase}
      (htask : relay.tasks[place]? = some task) (h : relay.Settles task phase) :
      Deed relay move ⟨relay.setPhase place phase, []⟩
  | begins {move : Move} {place : Nat} {id : ConnectionId} {token : Token}
      {connection : Connection}
      (htask : relay.tasks[place]? = some ⟨.connection id, token, .ready⟩)
      (hconnection : relay.connection? id = some connection)
      (hlife : connection.life = .unstarted) :
      Deed relay move (relay.begun place id token)
  | opens {move : Move} {place : Nat} {group : Group} {token : Token} {path : ComponentPath}
      (htask : relay.tasks[place]? = some ⟨.group group, token, .ready⟩)
      (hpath : relay.pathOf? group = some path)
      (hfirst : group = .relay → relay.hasRun = false) :
      Deed relay move ⟨relay.opened place group token, [.event ⟨path, .started⟩]⟩
  | ends {move : Move} {place : Nat} {group : Group} {token : Token} {failures : Nat}
      (htask : relay.tasks[place]? = some ⟨.group group, token, .joining [] failures⟩)
      (hstopped : relay.HasStopped group) :
      Deed relay move (relay.ended place group failures)

/-- One deed after another. -/
inductive Deeds (move : Move) : Relay → Change → Prop
  | nil (relay : Relay) : Deeds move relay ⟨relay, []⟩
  | cons {relay : Relay} {change later : Change} (deed : Deed relay move change)
      (deeds : Deeds move change.relay later) :
      Deeds move relay ⟨later.relay, change.occurrences ++ later.occurrences⟩

namespace Deeds

variable {move : Move} {relay : Relay} {change later : Change}

theorem single (deed : Deed relay move change) : Deeds move relay change := by
  have hone := cons deed (nil change.relay)
  rwa [List.append_nil] at hone

theorem trans (first : Deeds move relay change) (second : Deeds move change.relay later) :
    Deeds move relay ⟨later.relay, change.occurrences ++ later.occurrences⟩ := by
  induction first with
  | nil => exact second
  | cons deed _ ih =>
      have hchain := cons deed (ih second)
      rwa [← List.append_assoc] at hchain

/-- What every deed keeps is kept by all of them. -/
theorem induction {motive : Relay → List Occurrence → Prop} (h : Deeds move relay change)
    (hdeed : ∀ {before : Relay} {earlier : List Occurrence} {next : Change},
      motive before earlier → Deed before move next →
        motive next.relay (earlier ++ next.occurrences))
    {earlier : List Occurrence} (hbegin : motive relay earlier) :
    motive change.relay (earlier ++ change.occurrences) := by
  induction h generalizing earlier with
  | nil => rwa [List.append_nil]
  | cons deed _ ih =>
      rw [← List.append_assoc]
      exact ih (hdeed hbegin deed)

end Deeds

/-! ## The deeds of a move -/

section Step

variable {relay : Relay} {move : Move}

theorem closeEach_deeds {close : Relay → Nat → Change}
    (h : ∀ relay index, Deeds move relay (close relay index)) (count : Nat) (relay : Relay) :
    Deeds move relay (closeEach close count relay) := by
  have hfold : ∀ (indices : List Nat) (change : Change), Deeds move relay change →
      Deeds move relay
        (indices.foldl (fun change index => change.andThen (close · index)) change) := by
    intro indices
    induction indices with
    | nil => exact fun _ hchange => hchange
    | cons index indices ih => exact fun change hchange => ih _ (hchange.trans (h _ index))
  exact hfold _ _ (.nil relay)

theorem closeEndpoint_deeds {component : Component} {server endpoint : Nat}
    (h : ∀ index, component.Covers { server, endpoint, index }) (relay : Relay) :
    Deeds (.close component) relay (relay.closeEndpoint server endpoint) := by
  have hclose : ∀ (relay : Relay) (index : Nat), Deeds (.close component) relay
      (relay.act { server, endpoint, index } .close) :=
    fun relay index => .single (.closes (h index))
  exact Deeds.trans (.single (.closesFanOut server endpoint)) (closeEach_deeds hclose _ _)

theorem closeServer_deeds {component : Component} {server : Nat}
    (h : ∀ endpoint index, component.Covers { server, endpoint, index }) (relay : Relay) :
    Deeds (.close component) relay (relay.closeServer server) :=
  closeEach_deeds (fun relay endpoint => closeEndpoint_deeds (h endpoint) relay) _ _

theorem close_deeds (relay : Relay) (component : Component) :
    Deeds (.close component) relay (relay.close component) := by
  cases component with
  | connection id => exact .single (.closes rfl)
  | group group =>
      cases group with
      | relay =>
          have hclose : ∀ (relay : Relay) (server : Nat),
              Deeds (.close (.group .relay)) relay (relay.closeServer server) :=
            fun relay server => closeServer_deeds (by simp [Component.Covers]) relay
          exact Deeds.trans (.single (.cancels .relay)) (closeEach_deeds hclose _ _)
      | server server =>
          refine closeServer_deeds ?_ relay
          exact fun _ _ => rfl
      | endpoint server endpoint =>
          refine closeEndpoint_deeds ?_ relay
          exact fun _ => ⟨rfl, rfl⟩

theorem stop_deeds (relay : Relay) (reason : String) : Deeds move relay (relay.stop reason) := by
  unfold stop
  split_ifs
  · exact .nil relay
  · exact Deeds.trans (.single (.cancels .relay)) (.single (.notes (by simp [Occurrence.isNote])))

theorem beginConnection_eq_begun {id : ConnectionId} {connection : Connection}
    (hconnection : relay.connection? id = some connection) (hlife : connection.life = .unstarted)
    (place : Nat) (token : Token) :
    relay.beginConnection place id token = relay.begun place id token := by
  obtain ⟨_, _, _, _, _, _, _, _, _, _, life⟩ := connection
  obtain rfl : life = .unstarted := hlife
  unfold beginConnection
  rw [hconnection]
  rfl

/-- There is nothing to begin in a connection that has begun, or in one that is not there. -/
theorem beginConnection_eq_done {id : ConnectionId}
    (h : ∀ connection, relay.connection? id = some connection → connection.life ≠ .unstarted)
    (place : Nat) (token : Token) :
    relay.beginConnection place id token = ⟨relay.setPhase place (.done none), []⟩ := by
  unfold beginConnection
  split
  next hconnection => exact absurd rfl (h _ hconnection)
  next => rfl

theorem beginConnection_deeds {place : Nat} {id : ConnectionId} {token : Token}
    (htask : relay.tasks[place]? = some ⟨.connection id, token, .ready⟩) :
    Deeds move relay (relay.beginConnection place id token) := by
  by_cases hfirst : ∃ connection, relay.connection? id = some connection ∧
      connection.life = .unstarted
  · obtain ⟨connection, hconnection, hlife⟩ := hfirst
    rw [beginConnection_eq_begun hconnection hlife]
    exact .single (.begins htask hconnection hlife)
  · have hskips : ∀ connection, relay.connection? id = some connection →
        connection.life ≠ .unstarted :=
      fun connection hconnection hlife => hfirst ⟨connection, hconnection, hlife⟩
    rw [beginConnection_eq_done hskips]
    exact .single (.settles htask (.skips hskips))

theorem beginGroup_deeds {place : Nat} {group : Group} {token : Token}
    (hgroup : group ≠ .relay)
    (htask : relay.tasks[place]? = some ⟨.group group, token, .ready⟩) :
    Deeds move relay (relay.beginGroup place group token) := by
  unfold beginGroup
  split
  next hpath => exact .single (.settles htask (.strays hpath))
  next path hpath =>
    have hopened : relay.opened place group token =
        (relay.spawn (relay.childrenOf group) (if group = .relay then .relay else token)).2.setPhase
          place (.joining (relay.spawn (relay.childrenOf group)
            (if group = .relay then .relay else token)).1 0) := by
      simp [opened, hgroup]
    have hopens : Deed relay move ⟨relay.opened place group token, [.event ⟨path, .started⟩]⟩ :=
      .opens htask hpath fun h => absurd h hgroup
    rw [hopened] at hopens
    exact Deeds.trans (.single hopens) (.single (.notes (by simp [Occurrence.isNote])))

theorem beginRelay_deeds {place : Nat} {token : Token}
    (htask : relay.tasks[place]? = some ⟨.group .relay, token, .ready⟩) :
    Deeds move relay (relay.beginRelay place token) := by
  unfold beginRelay
  split_ifs with hrun
  · exact .single (.settles htask (.refuses hrun))
  · have hopens : Deed relay move
        ⟨relay.opened place .relay token, [.event ⟨path, .started⟩]⟩ :=
      .opens htask rfl fun _ => by simpa using hrun
    have hbegin : Deeds move relay
        ({ relay with hasRun := true }.beginGroup place .relay token) := by
      have hrecord : ∀ occurrence ∈
          [Occurrence.record ({ relay with hasRun := true }.beginRecord .relay path)],
          occurrence.isNote = true := by
        simp [Occurrence.isNote]
      have hnote := Deeds.trans (.single hopens) (.single (.notes hrecord))
      simpa [opened, beginGroup, pathOf?] using hnote
    simp only []
    split
    next => exact hbegin
    next span _ =>
      have hnote : ∀ occurrence ∈ [Occurrence.deadline place span], occurrence.isNote = true := by
        simp [Occurrence.isNote]
      exact hbegin.trans (.single (.notes hnote))

theorem endGroup_deeds {place : Nat} {group : Group} {token : Token} {failures : Nat}
    (htask : relay.tasks[place]? = some ⟨.group group, token, .joining [] failures⟩) :
    Deeds move relay (relay.endGroup place group failures) := by
  have hnotes : ∀ path : ComponentPath,
      ∀ occurrence ∈ (endRecords group path failures).map Occurrence.record,
        occurrence.isNote = true := by
    simp [Occurrence.isNote]
  -- What is to be stopped has been stopped, and the path of the group is what it was.
  have hends : ∀ stopped : Relay, stopped.tasks = relay.tasks → TreeStep relay stopped →
      stopped.HasStopped group →
      let path := (relay.pathOf? group).getD path
      Deeds move stopped
        ⟨stopped.setPhase place (.done ((groupFailure? group path failures).map .relay)),
          (endRecords group path failures).map .record
            ++ [.event ⟨path, .stopped (stopText? group path failures)⟩]⟩ := by
    intro stopped htasks htree hstopped path
    have hpath : (stopped.pathOf? group).getD Relay.path = path :=
      congrArg (Option.getD · Relay.path) (htree.componentPath? (.group group))
    have hended : Deed stopped move (stopped.ended place group failures) :=
      .ends (htasks ▸ htask) hstopped
    simp only [ended, hpath] at hended
    exact Deeds.trans (.single (.notes (hnotes path))) (.single hended)
  unfold endGroup
  cases group with
  | relay =>
      refine Deeds.trans (.single (.cancels .relay)) (hends _ (tasks_cancel _ _) ?_ ?_)
      · exact .rests (servers_cancel _ _)
      · simp [HasStopped, isCancelled_cancel]
  | server server => exact hends relay rfl (.rests rfl) trivial
  | endpoint server endpoint =>
      refine Deeds.trans (.single (.closesFanOut server endpoint))
        (hends _ (tasks_closeFanOut _ _ _) (closeFanOut_treeStep _ _ _) ?_)
      intro value hvalue
      rw [endpoint?_closeFanOut] at hvalue
      obtain ⟨before, -, rfl⟩ := Option.map_eq_some_iff.mp hvalue
      simp only [and_self, if_true, Endpoint.act, FanOut.close]
      split_ifs with hclosed
      · exact hclosed
      · rfl

theorem advanceGroup?_deeds {place : Nat} {group : Group} {token : Token} {children : List Nat}
    {failures : Nat} {change : Change}
    (htask : relay.tasks[place]? = some ⟨.group group, token, .joining children failures⟩)
    (h : relay.advanceGroup? place group token children failures = some change) :
    Deeds move relay change := by
  unfold advanceGroup? at h
  split at h
  next child hchild =>
    obtain rfl := Option.some.inj h
    have hdone : (relay.phaseOf child).isDone = true := by
      simpa using List.find?_some hchild
    unfold join
    simp only []
    split
    next =>
      exact Deeds.trans (.single (.settles htask (.joins hdone _)))
        (.single (.notes (by simp [Occurrence.isNote])))
    next => exact .single (.settles htask (.joins hdone _))
  next =>
    split_ifs at h with hempty
    · obtain rfl := Option.some.inj h
      obtain rfl : children = [] := List.isEmpty_iff.mp hempty
      exact endGroup_deeds htask
    · obtain rfl := Option.some.inj h
      exact stop_deeds relay _

theorem poll?_deeds {place : Nat} {change : Change} (h : relay.poll? place = some change) :
    Deeds move relay change := by
  unfold poll? at h
  obtain ⟨⟨component, token, phase⟩, htask, hnext⟩ := Option.bind_eq_some_iff.mp h
  simp only [] at hnext
  split at hnext
  next =>
    obtain rfl := Option.some.inj hnext
    unfold begin
    split
    next => exact beginConnection_deeds htask
    next => exact beginRelay_deeds htask
    next hgroup =>
      refine beginGroup_deeds ?_ htask
      rintro rfl
      exact hgroup rfl
  next => exact advanceGroup?_deeds htask hnext
  next id _ =>
    obtain ⟨connection, hconnection, hlife⟩ := Option.bind_eq_some_iff.mp hnext
    split at hlife
    next failure hended =>
      obtain rfl := Option.some.inj hlife
      exact .single (.settles htask (.arrives hconnection hended))
    next => cases hlife
  next => cases hnext

/-- Every move is a chain of deeds. -/
theorem step_deeds (relay : Relay) (move : Move) : Deeds move relay (relay.step move) := by
  cases move with
  | run component token => exact .single (.runs component token)
  | close component => exact relay.close_deeds component
  | cancel token => exact .single (.cancels token)
  | poll place =>
      simp only [step]
      cases hpoll : relay.poll? place with
      | none => exact .nil relay
      | some change => exact poll?_deeds hpoll
  | expire place =>
      simp only [step, expire]
      split
      next => exact stop_deeds relay _
      next => exact .nil relay
  | signal id signal =>
      cases hconnection : relay.connection? id with
      | none =>
          simp only [step, Relay.signal, stepConnection_of_none hconnection]
          exact .nil relay
      | some connection =>
          simp only [step, signal_eq_act hconnection]
          exact .single (.signals hconnection signal)

end Step

/-! ## All that happens to a relay -/

/-- A relay after these moves, and what has come of them. -/
def stepAll (relay : Relay) (moves : List Move) : Change :=
  moves.foldl (fun change move => change.andThen (·.step move)) ⟨relay, []⟩

/-- What every deed of a move keeps is kept by the move. -/
theorem step_induction {motive : Relay → List Occurrence → Prop} {relay : Relay} {move : Move}
    (hbegin : motive relay [])
    (hdeed : ∀ {before : Relay} {earlier : List Occurrence} {next : Change},
      motive before earlier → Deed before move next →
        motive next.relay (earlier ++ next.occurrences)) :
    motive (relay.step move).relay (relay.step move).occurrences :=
  (step_deeds relay move).induction hdeed hbegin

theorem stepAll_append_singleton (relay : Relay) (moves : List Move) (move : Move) :
    relay.stepAll (moves ++ [move]) = (relay.stepAll moves).andThen (·.step move) := by
  rw [stepAll, List.foldl_append]
  rfl

theorem stepAll_append (relay : Relay) (first second : List Move) :
    relay.stepAll (first ++ second) = (relay.stepAll first).andThen (·.stepAll second) := by
  induction second using List.reverseRecOn with
  | nil =>
      rw [List.append_nil]
      exact congrArg (Change.mk _) (List.append_nil _).symm
  | append_singleton second move ih =>
      rw [← List.append_assoc, stepAll_append_singleton, ih]
      simp only [Change.andThen, stepAll_append_singleton, List.append_assoc]

theorem stepAll_cons (relay : Relay) (move : Move) (moves : List Move) :
    relay.stepAll (move :: moves) = (relay.step move).andThen (·.stepAll moves) :=
  relay.stepAll_append [move] moves

/-- What every deed of these moves keeps is kept by all of them. -/
theorem stepAll_induction {motive : Relay → List Occurrence → Prop} {relay : Relay}
    {moves : List Move} (hbegin : motive relay [])
    (hdeed : ∀ {move : Move} {before : Relay} {earlier : List Occurrence} {next : Change},
      move ∈ moves → motive before earlier → Deed before move next →
        motive next.relay (earlier ++ next.occurrences)) :
    motive (relay.stepAll moves).relay (relay.stepAll moves).occurrences := by
  induction moves using List.reverseRecOn with
  | nil => exact hbegin
  | append_singleton moves move ih =>
      have hearlier := ih fun hmove => hdeed (List.mem_append_left _ hmove)
      rw [stepAll_append_singleton]
      exact (step_deeds _ move).induction
        (hdeed (List.mem_append_right _ List.mem_cons_self)) hearlier

end Relay

end LiveRelay
