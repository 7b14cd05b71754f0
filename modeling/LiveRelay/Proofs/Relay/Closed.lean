import LiveRelay.Proofs.Queue.DropOldest
import LiveRelay.Proofs.Relay.Closing

/-! # Relays that have been closed

A relay that has been closed stays closed, whatever happens to it, even if it is only run then.
Its connections can still leave the links and listeners that they had, and that is all that
they do. One that has never been run is closed on the spot, and this is all that is ever seen
of it.
-/

namespace LiveRelay

/-- What can still be reported when a relay has been closed: no connection listens any more, or
goes anywhere but down. -/
def EventKind.IsParting : EventKind → Prop
  | .transition _ target _ _ => target = .draining ∨ target = .closed
  | .listening _ => False
  | _ => True

/-- What can still come of it: of the network and the clock nothing is asked but to let go. -/
def Occurrence.IsParting : Occurrence → Prop
  | .event ⟨_, kind⟩ => kind.IsParting
  | .request _ asked => asked = .hangUp ∨ asked = .unbind
  | _ => True

theorem Occurrence.isParting_of_isNote {occurrence : Occurrence} (h : occurrence.isNote = true) :
    occurrence.IsParting := by
  cases occurrence with
  | event => cases h
  | request => cases h
  | record => trivial
  | deadline => trivial

/-- A connection that has been told to stop only parts. -/
theorem Connection.farewell_isParting (connection : Connection) (fanOut : FanOut) (run : Run)
    (await : Await) (id : ConnectionId) (path : ComponentPath) :
    ∀ effect ∈ connection.farewell fanOut run await, (effect.occurrence id path).IsParting := by
  have hdrain : ∀ effect ∈ drain await.state run, (effect.occurrence id path).IsParting := by
    unfold drain
    split_ifs <;> simp [Effect.occurrence, Occurrence.IsParting, EventKind.IsParting]
  have hreport : ∀ kind ∈ connection.dropReport fanOut, kind.IsParting := by
    unfold dropReport
    split
    · simp
    · dsimp only
      split_ifs <;> simp [EventKind.IsParting]
  intro effect heffect
  rcases List.mem_append.mp heffect with hlink | hleave
  · split_ifs at hlink
    · rcases List.mem_append.mp hlink with hdrops | hhang
      · obtain ⟨kind, hkind, rfl⟩ := List.mem_map.mp hdrops
        exact hreport kind hkind
      · obtain rfl := List.mem_singleton.mp hhang
        exact .inl rfl
    · cases hlink
  · exact hdrain effect hleave

namespace Relay

variable {relay : Relay} {id : ConnectionId} {move : Move} {change : Change}

/-! ## After the relay has been closed -/

/-- From a relay that is closed, `change` leads to one that is, and on the way connections only
part. The fan-outs stay as they are. -/
structure StaysClosed (relay : Relay) (change : Change) : Prop where
  isClosed : change.relay.IsClosed (.group .relay)
  parting : ∀ occurrence ∈ change.occurrences, occurrence.IsParting
  fanOut : ∀ server endpoint, (change.relay.endpoint? server endpoint).map Endpoint.fanOut =
    (relay.endpoint? server endpoint).map Endpoint.fanOut

/-- Only the fan-outs and what connections have been asked matter. -/
theorem IsClosed.after (h : relay.IsClosed (.group .relay)) {later : Relay}
    (hcancelled : later.isCancelled .relay = true)
    (hfanOut : ∀ server endpoint, (later.endpoint? server endpoint).map Endpoint.fanOut =
      (relay.endpoint? server endpoint).map Endpoint.fanOut)
    (hasked : ∀ id, later.HasAsked id) : later.IsClosed (.group .relay) := by
  refine ⟨fun _ => hcancelled, ?_, fun id _ => hasked id⟩
  intro server endpoint _ value hvalue
  have hsame := hfanOut server endpoint
  rw [hvalue, Option.map_some] at hsame
  obtain ⟨before, hbefore, heq⟩ := Option.map_eq_some_iff.mp hsame.symm
  rw [← heq]
  exact h.stopped server endpoint trivial before hbefore

theorem IsClosed.rests (h : relay.IsClosed (.group .relay))
    (hservers : change.relay.servers = relay.servers)
    (hcancelled : change.relay.isCancelled .relay = true)
    (hparting : ∀ occurrence ∈ change.occurrences, occurrence.IsParting) :
    relay.StaysClosed change := by
  have hfanOut : ∀ server endpoint,
      (change.relay.endpoint? server endpoint).map Endpoint.fanOut =
        (relay.endpoint? server endpoint).map Endpoint.fanOut := by
    intro server endpoint
    rw [endpoint?_congr hservers]
  refine ⟨h.after hcancelled hfanOut fun id => ?_, hparting, hfanOut⟩
  exact (h.asked id trivial).congr (connection?_congr hservers id)

/-- A connection of a relay that is closed ends its run with the next signal. -/
theorem IsClosed.signal (h : relay.IsClosed (.group .relay)) (hsound : relay.IsSound)
    {connection : Connection} (hconnection : relay.connection? id = some connection)
    (signal : Signal) :
    relay.StaysClosed (relay.act id (.poll (relay.interrupts connection) signal)) := by
  obtain ⟨hasked, hlife⟩ := h.asked id trivial connection hconnection
  let act : Act := .poll (relay.interrupts connection) signal
  have hturn : ∀ fanOut, (connection.act fanOut act).fanOut = fanOut ∧
      (connection.act fanOut act).connection.life ≠ .unstarted ∧
      ∀ effect ∈ (connection.act fanOut act).effects, ∀ path,
        (effect.occurrence id path).IsParting := by
    intro fanOut
    cases hbefore : connection.life with
    | unstarted => exact absurd hbefore hlife
    | ended failure =>
        have hrests : connection.act fanOut act = { connection, fanOut } := by
          simp only [act, Connection.act, Connection.resume, hbefore]
        rw [hrests]
        exact ⟨rfl, hlife, List.forall_mem_nil _⟩
    | running run await =>
        have htold : relay.interrupts connection = true := by
          simp only [interrupts, hbefore, hasked, Bool.true_or]
        obtain ⟨heffects, hkept, hleft⟩ := Connection.resume_cancelled
          (hsound.coherent hconnection) hbefore fanOut signal
        have hact : connection.act fanOut act = connection.resume fanOut true signal := by
          simp only [act, htold]
          rfl
        rw [hact, heffects, hleft.life_eq]
        exact ⟨hkept, by simp, fun effect heffect path =>
          connection.farewell_isParting fanOut run await id path effect heffect⟩
  have hfanOut : ∀ server endpoint,
      ((relay.act id act).relay.endpoint? server endpoint).map Endpoint.fanOut =
        (relay.endpoint? server endpoint).map Endpoint.fanOut := by
    intro server endpoint
    rw [endpoint?_act, Option.map_map]
    cases hvalue : relay.endpoint? server endpoint with
    | none => rfl
    | some value =>
        simp only [Option.map_some, Function.comp_apply]
        split_ifs with hplace
        · obtain ⟨rfl, rfl⟩ := hplace
          have hget : value.connections[id.index]? = some connection := by
            rwa [connection?, hvalue, Option.bind_some] at hconnection
          simp only [Endpoint.act, hget, Endpoint.after, (hturn value.fanOut).1]
        · rfl
  obtain ⟨fanOut, -, hoccurrences, hlater, -⟩ := act_of_some hconnection act
  constructor
  case fanOut => exact hfanOut
  case parting =>
    intro occurrence hmem
    rw [hoccurrences, Turn.occurrences_eq] at hmem
    obtain ⟨effect, heffect, rfl⟩ := List.mem_map.mp hmem
    exact (hturn fanOut).2.2 effect heffect _
  case isClosed =>
    apply h.after _ hfanOut
    · intro other
      by_cases hother : other = id
      · subst hother
        intro later hnow
        obtain rfl := Option.some.inj (hlater.symm.trans hnow)
        have hact : act ≠ .close := by simp [act]
        exact ⟨(Connection.closeRequested_act hact connection fanOut).trans hasked,
          (hturn fanOut).2.1⟩
      · exact (h.asked other trivial).congr (connection?_act_of_ne hother relay act)
    · rw [Relay.isCancelled, cancelled_act]
      exact h.cancelled rfl

/-- Nothing that happens to a relay that is closed opens it again. -/
theorem Deed.staysClosed (hdeed : Deed relay move change) (hsound : relay.IsSound)
    (h : relay.IsClosed (.group .relay)) : relay.StaysClosed change := by
  have htoken := hdeed.isCancelled (h.cancelled rfl)
  cases hdeed with
  | notes hnotes =>
      exact h.rests rfl htoken fun occurrence hmem =>
        Occurrence.isParting_of_isNote (hnotes occurrence hmem)
  | cancels token => exact h.rests (servers_cancel _ _) htoken (List.forall_mem_nil _)
  | closesFanOut server endpoint =>
      exact h.rests (by rw [closeFanOut_of_hasStopped (h.stopped server endpoint trivial)])
        htoken (List.forall_mem_nil _)
  | signals hconnection signal => exact h.signal hsound hconnection signal
  | @closes _ id =>
      rw [act_close_of_hasAsked (h.asked id trivial)] at htoken ⊢
      exact h.rests rfl htoken (List.forall_mem_nil _)
  | runs => exact h.rests rfl htoken (List.forall_mem_nil _)
  | settles => exact h.rests rfl htoken (List.forall_mem_nil _)
  | @begins _ _ id _ connection _ hconnection hlife =>
      exact absurd hlife (h.asked id trivial connection hconnection).2
  | opens =>
      apply h.rests rfl htoken
      intro occurrence hmem
      obtain rfl := List.mem_singleton.mp hmem
      trivial
  | ends =>
      apply h.rests rfl htoken
      intro occurrence hmem
      obtain rfl := List.mem_singleton.mp hmem
      trivial

theorem StaysClosed.trans {later : Change} (first : relay.StaysClosed change)
    (second : change.relay.StaysClosed later) :
    relay.StaysClosed ⟨later.relay, change.occurrences ++ later.occurrences⟩ where
  isClosed := second.isClosed
  parting := by
    intro occurrence hmem
    exact (List.mem_append.mp hmem).elim (first.parting occurrence) (second.parting occurrence)
  fanOut := fun server endpoint =>
    (second.fanOut server endpoint).trans (first.fanOut server endpoint)

theorem IsClosed.stepAll (h : relay.IsClosed (.group .relay)) (hsound : relay.IsSound)
    (moves : List Move) : relay.StaysClosed (relay.stepAll moves) := by
  apply hsound.stepAll_induction
    (motive := fun later seen => relay.StaysClosed ⟨later, seen⟩)
  · exact h.rests rfl (h.cancelled rfl) (List.forall_mem_nil _)
  · intro move before earlier next hsound hbefore hdeed
    exact hbefore.trans (hdeed.staysClosed hsound hbefore.isClosed)

/-! ## Connections that have never been run -/

/-- The report of a connection that is closed without ever having been run. -/
def closure : Effect := .emit (.transition .idle .closed 0 none)

/-- What is seen of a connection that has never been run: nothing, or that it has been closed. -/
def IsUnrun (connection : Connection) (seen : List Effect) : Prop :=
  (connection.life = .unstarted ∧ seen = []) ∨
    (connection.life = .ended none ∧ seen = [closure])

/-- The run of a connection begins with a report. -/
theorem mem_started {connection : Connection} {fanOut : FanOut} {token : Token}
    {cancelled : Bool} (hlife : connection.life = .unstarted) :
    Effect.emit .started ∈ (connection.act fanOut (.run token cancelled)).effects := by
  have hmark : Mark.started ∈ (connection.act fanOut (.run token cancelled)).marks := by
    have hpassage := (connection.act_passes fanOut (.run token cancelled)).passage
    rw [hlife] at hpassage
    generalize (connection.act fanOut (.run token cancelled)).marks = marks at hpassage ⊢
    generalize (connection.act fanOut (.run token cancelled)).connection.life = after at hpassage
    cases hpassage with
    | rests hpoll =>
        obtain ⟨_, _, hact⟩ := hpoll rfl
        cases hact
    | begins => exact List.mem_cons_self
    | beginsInVain => exact List.mem_cons_self
  obtain ⟨effect, heffect, hstarted⟩ := List.mem_filterMap.mp hmark
  cases effect with
  | emit kind => cases kind <;> cases hstarted; exact heffect
  | request asked => cases asked <;> cases hstarted

/-- An act of a connection that has never been run, unless it runs it. -/
theorem IsUnrun.act {connection : Connection} {seen : List Effect}
    (h : IsUnrun connection seen) (hcoherent : connection.Coherent) (fanOut : FanOut) (act : Act)
    (hnot : Effect.emit .started ∉ (connection.act fanOut act).effects) :
    IsUnrun (connection.act fanOut act).connection
      (seen ++ (connection.act fanOut act).effects) := by
  rcases h with ⟨hlife, rfl⟩ | ⟨hlife, rfl⟩
  · have hstate : connection.state = .idle := by
      rw [hcoherent, hlife]
      rfl
    cases act with
    | run token cancelled => exact absurd (mem_started hlife) hnot
    | poll cancelled signal =>
        simp only [Connection.act, Connection.resume, hlife]
        exact .inl ⟨hlife, rfl⟩
    | close =>
        refine .inr ⟨?_, ?_⟩
        · simp only [Connection.act, Connection.close, hlife, Turn.connection_update]
        · simp [Connection.act, Connection.close, hlife, Turn.update, Turn.transition,
            Turn.emit, closure, hstate]
  · rw [Connection.effects_of_ended hlife, List.append_nil]
    exact .inr ⟨Connection.act_of_ended hlife fanOut act, rfl⟩

theorem isUnrun_of_not_started (config : Config) (moves : List Move) {connection : Connection}
    (hconnection : ((ofConfig config).stepAll moves).relay.connection? id = some connection)
    (hnot : Effect.emit .started ∉
      effectsOf id connection.path ((ofConfig config).stepAll moves).occurrences) :
    IsUnrun connection
      (effectsOf id connection.path ((ofConfig config).stepAll moves).occurrences) := by
  refine (ofConfig_isSound config).stepAll_induction
    (motive := fun relay seen => ∀ connection, relay.connection? id = some connection →
      Effect.emit .started ∉ effectsOf id connection.path seen →
        IsUnrun connection (effectsOf id connection.path seen))
    (fun _ hbegin _ => .inl ⟨life_ofConfig hbegin, rfl⟩) ?_ connection hconnection hnot
  intro move before earlier next hsound hunrun hdeed later hlater hnot
  obtain ⟨first, hfirst, hcases⟩ := hdeed.connection_after hsound.hasOwnPaths hlater
  rw [effectsOf_append] at hnot ⊢
  rcases hcases with ⟨fanOut, act, -, hacts, rfl⟩ | ⟨hrests, rfl⟩
  · rw [(first.act_passes fanOut act).path_eq, hacts.effects_eq] at hnot ⊢
    rw [List.mem_append, not_or] at hnot
    exact (hunrun first hfirst hnot.1).act (hsound.coherent hfirst) fanOut act hnot.2
  · rw [hrests.effects_eq, List.append_nil] at hnot ⊢
    exact hunrun first hfirst hnot

/-- Nothing more is seen of a connection that has ended. -/
theorem IsSound.silent_of_ended (hsound : relay.IsSound) {connection : Connection}
    {failure : Option ConnectionError} (hconnection : relay.connection? id = some connection)
    (hlife : connection.life = .ended failure) (moves : List Move) :
    (∃ last, (relay.stepAll moves).relay.connection? id = some last ∧
        last.path = connection.path ∧ last.life = .ended failure) ∧
      effectsOf id connection.path (relay.stepAll moves).occurrences = [] := by
  refine hsound.stepAll_induction
    (motive := fun later seen => (∃ last, later.connection? id = some last ∧
      last.path = connection.path ∧ last.life = .ended failure) ∧
      effectsOf id connection.path seen = []) ⟨⟨connection, hconnection, rfl, hlife⟩, rfl⟩ ?_
  rintro move before earlier next hsound ⟨⟨last, hlast, hpath, hended⟩, hseen⟩ hdeed
  rw [effectsOf_append, hseen, List.nil_append]
  rcases hdeed.connection_cases hsound.hasOwnPaths hlast with ⟨fanOut, act, -, hacts⟩ | hrests
  · refine ⟨⟨_, hacts.connection_eq, ?_, Connection.act_of_ended hended fanOut act⟩, ?_⟩
    · exact (last.act_passes fanOut act).path_eq.trans hpath
    · rw [← hpath, hacts.effects_eq, Connection.effects_of_ended hended]
  · exact ⟨⟨last, hrests.connection_eq, hpath, hended⟩, hpath ▸ hrests.effects_eq⟩

/-! ## Closing is final -/

/-- Every fan-out of a relay is closed as a whole, if it is closed. -/
theorem stepAll_shutsWhole (config : Config) (moves : List Move) {server endpoint : Nat}
    {value : Endpoint}
    (hvalue : ((ofConfig config).stepAll moves).relay.endpoint? server endpoint = some value) :
    value.fanOut.ShutsWhole := by
  refine stepAll_induction
    (motive := fun relay _ => ∀ server endpoint value,
      relay.endpoint? server endpoint = some value → value.fanOut.ShutsWhole)
    ?_ ?_ server endpoint value hvalue
  · intro server endpoint value hbegin
    rw [endpoint?_ofConfig] at hbegin
    obtain ⟨settings, -, rfl⟩ := Option.map_eq_some_iff.mp hbegin
    exact nofun
  · intro move before earlier next _ hbefore hdeed server endpoint later hlater
    obtain ⟨value, hvalue, rfl | ⟨act, rfl⟩⟩ := hdeed.treeStep.endpoint hlater
    · exact hbefore server endpoint later hvalue
    · exact Endpoint.shutsWhole_act (hbefore server endpoint value hvalue) act

/-- The relay of a configuration when it has been closed after these moves. -/
def closedAfter (config : Config) (moves : List Move) : Relay :=
  (((ofConfig config).stepAll moves).relay.close (.group .relay)).relay

/-- What closing comes to in a relay that has been through `earlier`, and what is left of it
when the relay goes through `later`. -/
structure ClosesForGood (config : Config) (earlier later : List Move) : Prop where
  /-- To close a part of the tree twice is to close it once. -/
  twice : ∀ component,
    let closed := (((ofConfig config).stepAll earlier).relay.close component).relay
    closed.close component = ⟨closed, []⟩
  /-- When the relay has been closed, its connections only let go of what they have. -/
  parting : ∀ occurrence ∈ ((closedAfter config earlier).stepAll later).occurrences,
    occurrence.IsParting
  /-- No fan-out changes any more. -/
  fanOut : ∀ server endpoint,
    (((closedAfter config earlier).stepAll later).relay.endpoint? server endpoint).map
        Endpoint.fanOut =
      ((closedAfter config earlier).endpoint? server endpoint).map Endpoint.fanOut
  /-- Whatever is offered to one is refused. -/
  publish : ∀ server endpoint value,
    ((closedAfter config earlier).stepAll later).relay.endpoint? server endpoint = some value →
      ∀ frame, value.fanOut.publish frame = (.closed, value.fanOut)
  /-- No queue takes a frame, and there is none to be had from it. -/
  queues : ∀ server endpoint value,
    ((closedAfter config earlier).stepAll later).relay.endpoint? server endpoint = some value →
      ∀ queue ∈ value.fanOut.sinks, queue.frames = [] ∧ queue.pop = (.finished, queue) ∧
        ∀ frame, queue.push frame = queue
  /-- A connection that had not been run by then never is. It has been closed, and this is all
  that is ever seen of it. -/
  unrun : ∀ id connection,
    ((ofConfig config).stepAll earlier).relay.connection? id = some connection →
    Effect.emit .started ∉
      effectsOf id connection.path ((ofConfig config).stepAll earlier).occurrences →
    let whole := (ofConfig config).stepAll (earlier ++ .close (.group .relay) :: later)
    effectsOf id connection.path whole.occurrences = [closure] ∧
      ∃ last, whole.relay.connection? id = some last ∧ last.state = .closed ∧
        last.life = .ended none

theorem closedAfter_eq (config : Config) (earlier : List Move) :
    closedAfter config earlier =
      ((ofConfig config).stepAll (earlier ++ [.close (.group .relay)])).relay := by
  rw [stepAll_append_singleton]
  rfl

/-- A connection that has not been run when the relay is closed is closed on the spot. -/
theorem unrun_closedAfter (config : Config) (earlier : List Move) {connection : Connection}
    (hconnection : ((ofConfig config).stepAll earlier).relay.connection? id = some connection)
    (hnot : Effect.emit .started ∉
      effectsOf id connection.path ((ofConfig config).stepAll earlier).occurrences) :
    ∃ last, (closedAfter config earlier).connection? id = some last ∧
      last.path = connection.path ∧ last.life = .ended none ∧
      effectsOf id connection.path
        ((ofConfig config).stepAll (earlier ++ [.close (.group .relay)])).occurrences =
          [closure] := by
  have hpath := componentPath?_close ((ofConfig config).stepAll earlier).relay (.group .relay)
    (.connection id)
  rw [componentPath?_connection hconnection] at hpath
  obtain ⟨last, hlast, hsame⟩ := Option.map_eq_some_iff.mp hpath
  have hasked := (close_isClosed ((ofConfig config).stepAll earlier).relay (.group .relay)).asked
    id trivial last hlast
  have hstill : Effect.emit .started ∉ effectsOf id last.path
      ((ofConfig config).stepAll (earlier ++ [.close (.group .relay)])).occurrences := by
    rw [stepAll_append_singleton, Change.andThen, effectsOf_append, hsame, List.mem_append, not_or]
    refine ⟨hnot, ?_⟩
    intro hmem
    obtain ⟨occurrence, hoccurrence, heffect⟩ := List.mem_filterMap.mp hmem
    obtain ⟨path, source, rfl⟩ := close_isClosure _ _ occurrence hoccurrence
    simp only [Occurrence.effect?] at heffect
    split_ifs at heffect
    cases heffect
  have hlater := hlast
  change (closedAfter config earlier).connection? id = some last at hlater
  rw [closedAfter_eq] at hlater
  rcases isUnrun_of_not_started config _ hlater hstill with ⟨hlife, -⟩ | ⟨hlife, hseen⟩
  · exact absurd hlife hasked.2
  · exact ⟨last, hlast, hsame, hlife, hsame ▸ hseen⟩

/-- In every state, closing is final, and closing again changes nothing. -/
theorem close_closesForGood (config : Config) (earlier later : List Move) :
    ClosesForGood config earlier later ∧
      (∀ fanOut : FanOut, fanOut.close.close = fanOut.close) ∧
      (∀ queue : SinkQueue, queue.close.close = queue.close) ∧
      ∀ room : WaitingQueue, room.close.close = room.close := by
  refine ⟨?_, FanOut.close_close, SinkQueue.close_close, WaitingQueue.close_close⟩
  have hsound : (closedAfter config earlier).IsSound := by
    rw [closedAfter_eq]
    exact stepAll_isSound (ofConfig_isSound config) _
  have hclosed : (closedAfter config earlier).IsClosed (.group .relay) :=
    close_isClosed _ (.group .relay)
  have hstays := hclosed.stepAll hsound later
  have hwhole : (ofConfig config).stepAll (earlier ++ .close (.group .relay) :: later) =
      ⟨((closedAfter config earlier).stepAll later).relay,
        ((ofConfig config).stepAll (earlier ++ [.close (.group .relay)])).occurrences ++
          ((closedAfter config earlier).stepAll later).occurrences⟩ := by
    rw [List.append_cons, stepAll_append, closedAfter_eq]
    rfl
  have hshut : ∀ server endpoint value,
      ((closedAfter config earlier).stepAll later).relay.endpoint? server endpoint = some value →
        value.fanOut.IsShut := by
    intro server endpoint value hvalue
    apply stepAll_shutsWhole config (earlier ++ .close (.group .relay) :: later)
    · rw [hwhole]
      exact hvalue
    · exact hstays.isClosed.stopped server endpoint trivial value hvalue
  constructor
  case twice => exact fun component => close_close _ component
  case parting => exact hstays.parting
  case fanOut => exact hstays.fanOut
  case publish =>
    intro server endpoint value hvalue frame
    exact FanOut.publish_of_closed (hshut server endpoint value hvalue).closed frame
  case queues =>
    intro server endpoint value hvalue queue hqueue
    obtain ⟨hqueueClosed, hframes⟩ := (hshut server endpoint value hvalue).queues queue hqueue
    exact ⟨hframes, SinkQueue.pop_of_closed hqueueClosed,
      SinkQueue.push_of_closed hqueueClosed⟩
  case unrun =>
    intro id connection hconnection hnot
    obtain ⟨first, hfirst, hpath, hlife, hseen⟩ := unrun_closedAfter config earlier hconnection hnot
    obtain ⟨⟨last, hlast, hlastPath, hended⟩, hsilent⟩ := hsound.silent_of_ended hfirst hlife later
    rw [hpath] at hsilent
    dsimp only
    rw [hwhole, effectsOf_append, hseen, hsilent]
    refine ⟨rfl, last, hlast, ?_, hended⟩
    rw [(stepAll_isSound hsound later).coherent hlast, hended]
    rfl

end Relay

end LiveRelay
