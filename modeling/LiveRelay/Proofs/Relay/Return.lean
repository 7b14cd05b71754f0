import LiveRelay.Proofs.Relay.Cancellation
import LiveRelay.Proofs.Relay.Nesting

/-! # When the run of a relay is done

When the run of a relay is done, nothing in it is left open: every connection is closed and
without a listener, every fan-out is closed with its queues, and every part has reported a
beginning and an end, between those of the part above it. A connection is only exempt from
this if it was closed before its run. Nothing is ever reported after that, and the relay cannot
be run again.
-/

namespace LiveRelay

namespace Relay

variable {relay : Relay} {move : Move} {change : Change}

/-! ## The parts of a relay stay the same -/

theorem componentPath?_stepAll (relay : Relay) (moves : List Move) (component : Component) :
    (relay.stepAll moves).relay.componentPath? component = relay.componentPath? component :=
  stepAll_induction
    (motive := fun later _ => later.componentPath? component = relay.componentPath? component) rfl
    fun _ hsame hdeed => (hdeed.treeStep.componentPath? component).trans hsame

/-- A connection is there after any moves if it was there before, and at the same path. -/
theorem map_path_stepAll (relay : Relay) (moves : List Move) (id : ConnectionId) :
    ((relay.stepAll moves).relay.connection? id).map Connection.path =
      (relay.connection? id).map Connection.path :=
  relay.componentPath?_stepAll moves (.connection id)

/-! ## Connections that are closed before they are run -/

/-- The connection was closed before its run began. -/
def ClosedEarly (config : Config) (moves : List Move) (id : ConnectionId) : Prop :=
  ∃ first component rest connection, moves = first ++ .close component :: rest ∧
    component.Covers id ∧ ((ofConfig config).stepAll first).relay.connection? id = some connection ∧
    connection.life = .unstarted

/-- A connection that has not been run goes on without a report only when it is closed. -/
theorem Deed.unstarted (h : Deed relay move change) (hpaths : relay.HasOwnPaths)
    {id : ConnectionId} {connection later : Connection}
    (hconnection : relay.connection? id = some connection) (hlife : connection.life = .unstarted)
    (hlater : change.relay.connection? id = some later) :
    later.life = .unstarted ∨ marksOf later.path change.occurrences ≠ [] ∨
      ∃ component, move = .close component ∧ component.Covers id := by
  obtain ⟨before, hbefore, hcases⟩ := h.connection_after hpaths hlater
  rw [hconnection] at hbefore
  obtain rfl := Option.some.inj hbefore
  rcases hcases with ⟨fanOut, act, hlets, hacts, rfl⟩ | ⟨-, rfl⟩
  · have hpassage := (connection.act_passes fanOut act).passage
    rw [(connection.act_passes fanOut act).path_eq, hacts.marks_eq]
    rw [hlife] at hpassage
    generalize (connection.act fanOut act).marks = marks at hpassage ⊢
    generalize (connection.act fanOut act).connection.life = life at hpassage ⊢
    cases hpassage with
    | rests => exact .inl rfl
    | begins => exact .inr (.inl nofun)
    | beginsInVain => exact .inr (.inl nofun)
    | closes =>
        cases hlets with
        | closes hcovers => exact .inr (.inr ⟨_, rfl, hcovers⟩)
  · exact .inl hlife

theorem step_unstarted (hsound : relay.IsSound) {id : ConnectionId} {connection later : Connection}
    (hconnection : relay.connection? id = some connection) (hlife : connection.life = .unstarted)
    (hlater : (relay.step move).relay.connection? id = some later) :
    later.life = .unstarted ∨ marksOf later.path (relay.step move).occurrences ≠ [] ∨
      ∃ component, move = .close component ∧ component.Covers id := by
  refine hsound.step_induction
    (motive := fun relay seen => ∀ later, relay.connection? id = some later →
      later.life = .unstarted ∨ marksOf later.path seen ≠ [] ∨
        ∃ component, move = .close component ∧ component.Covers id) ?_ ?_ later hlater
  · intro later hlater
    rw [hconnection] at hlater
    obtain rfl := Option.some.inj hlater
    exact .inl hlife
  · intro before earlier next hsound hbefore hdeed later hlater
    obtain ⟨first, hfirst, hpath⟩ := hdeed.treeStep.connection_before hlater
    rw [marksOf_append]
    rcases hbefore first hfirst with hunstarted | hmarks | hclosed
    · rcases hdeed.unstarted hsound.hasOwnPaths hfirst hunstarted hlater with
        hstill | hmarks | hclosed
      · exact .inl hstill
      · exact .inr (.inl fun hnone => hmarks (List.append_eq_nil_iff.mp hnone).2)
      · exact .inr (.inr hclosed)
    · rw [hpath] at hmarks
      exact .inr (.inl fun hnone => hmarks (List.append_eq_nil_iff.mp hnone).1)
    · exact .inr (.inr hclosed)

/-- A connection of which nothing has been reported has not been run, or has been closed before
it was. -/
theorem unmarked_cases (config : Config) (moves : List Move) {id : ConnectionId}
    {connection : Connection}
    (hconnection : ((ofConfig config).stepAll moves).relay.connection? id = some connection)
    (hmarks : marksOf connection.path ((ofConfig config).stepAll moves).occurrences = []) :
    connection.life = .unstarted ∨ ClosedEarly config moves id := by
  induction moves using List.reverseRecOn generalizing connection with
  | nil => exact .inl (life_ofConfig hconnection)
  | append_singleton moves move ih =>
      rw [stepAll_append_singleton, Change.andThen] at hconnection hmarks
      have hsame := ((ofConfig config).stepAll moves).relay.map_path_stepAll [move] id
      obtain ⟨first, hfirst, hpath⟩ := Option.map_eq_some_iff.mp
        (hsame.symm.trans (congrArg (Option.map Connection.path) hconnection))
      simp only [marksOf_append] at hmarks
      obtain ⟨hearlier, hnow⟩ := List.append_eq_nil_iff.mp hmarks
      rw [← hpath] at hearlier
      rcases ih hfirst hearlier with hunstarted | ⟨before, component, rest, old, rfl, hclosed⟩
      · have hsound := stepAll_isSound (ofConfig_isSound config) moves
        rcases step_unstarted hsound hfirst hunstarted hconnection with
          hstill | hreported | ⟨component, rfl, hcovers⟩
        · exact .inl hstill
        · exact absurd hnow hreported
        · exact .inr ⟨moves, component, [], first, rfl, hcovers, hfirst, hunstarted⟩
      · refine .inr ⟨before, component, rest ++ [move], old, ?_, hclosed⟩
        rw [List.append_assoc, List.cons_append]

/-! ## Listeners -/

/-- How often the listener of a connection has been let go. -/
def releases (id : ConnectionId) (seen : List Occurrence) : Nat :=
  seen.count (.request id .unbind)

theorem releases_append (id : ConnectionId) (first second : List Occurrence) :
    releases id (first ++ second) = releases id first + releases id second :=
  List.count_append

theorem releases_eq (id : ConnectionId) (path : ComponentPath) (seen : List Occurrence) :
    releases id seen = ((effectsOf id path seen).filterMap Effect.mark?).count .released := by
  induction seen with
  | nil => rfl
  | cons occurrence seen ih =>
      rw [← List.singleton_append, releases_append, effectsOf_append, List.filterMap_append,
        List.count_append, ih, Nat.add_right_cancel_iff]
      cases occurrence with
      | event event =>
          obtain ⟨source, kind⟩ := event
          by_cases hsource : source = path
          · have heffects : effectsOf id path [.event ⟨source, kind⟩] = [.emit kind] := by
              simp [effectsOf, Occurrence.effect?, hsource]
            rw [heffects]
            cases kind <;> rfl
          · simp [releases, effectsOf, Occurrence.effect?, hsource]
      | request actor asked =>
          by_cases hactor : actor = id
          · have heffects : effectsOf id path [.request actor asked] = [.request asked] := by
              simp [effectsOf, Occurrence.effect?, hactor]
            rw [heffects, hactor]
            cases asked <;> simp [releases] <;> rfl
          · simp [releases, effectsOf, Occurrence.effect?, hactor]
      | record => rfl
      | deadline => rfl

/-- A listener is let go when the run that has it ends, and not before. -/
def Listens (relay : Relay) (id : ConnectionId) (seen : List Occurrence) : Prop :=
  ∀ connection, relay.connection? id = some connection →
    (∃ run await, connection.life = .running run await ∧ run.listening = true ∧
      releases id seen = 0) ∨
    ∃ failure, connection.life = .ended failure ∧ releases id seen = 1

theorem Deed.listens (h : Deed relay move change) (hpaths : relay.HasOwnPaths)
    {id : ConnectionId} {seen : List Occurrence} (hlistens : relay.Listens id seen) :
    change.relay.Listens id (seen ++ change.occurrences) := by
  intro later hlater
  obtain ⟨connection, hconnection, hcases⟩ := h.connection_after hpaths hlater
  rw [releases_append]
  rcases hcases with ⟨fanOut, act, -, hacts, rfl⟩ | ⟨hrests, rfl⟩
  · have hpassage := (connection.act_passes fanOut act).passage
    have hnow : releases id change.occurrences =
        (connection.act fanOut act).marks.count .released := by
      rw [releases_eq id connection.path, hacts.effects_eq]
      rfl
    rw [hnow]
    generalize (connection.act fanOut act).marks = marks at hpassage ⊢
    generalize (connection.act fanOut act).connection.life = life at hpassage ⊢
    rcases hlistens connection hconnection with ⟨run, await, hlife, hlistening, hnone⟩ |
      ⟨failure, hlife, hone⟩
    · rw [hlife] at hpassage
      cases hpassage with
      | rests => exact .inl ⟨run, await, rfl, hlistening, hnone⟩
      | goesOn htoken hnext => 
          refine .inl ⟨_, _, rfl, ?_, hnone⟩
          rw [hnext, hlistening]
          rfl
      | ends =>
          refine .inr ⟨_, rfl, ?_⟩
          rw [hnone, Run.endMarks, hlistening]
          rfl
    · rw [hlife] at hpassage
      cases hpassage with
      | rests => exact .inr ⟨failure, rfl, hone⟩
  · rw [releases_eq id connection.path change.occurrences, hrests.effects_eq]
    exact hlistens connection hconnection

/-! ## Runs of the relay that come too late -/

/-- The run that the task at `place` is to do has been refused, or is refused when the task is
looked at. Nothing else in the relay changes then. -/
def Refuses (relay : Relay) (place : Nat) : Prop :=
  let refused : TaskPhase := .done (some (.relay .alreadyRunning))
  ∃ token, relay.tasks[place]? = some ⟨.group .relay, token, refused⟩ ∨
    relay.tasks[place]? = some ⟨.group .relay, token, .ready⟩ ∧
      relay.step (.poll place) = ⟨relay.setPhase place refused, []⟩

theorem InOrder.refuses (h : relay.InOrder) {main place : Nat} {first task : Task}
    (hfirst : relay.tasks[main]? = some first) (hmain : first.component = .group .relay)
    (hbegun : first.HasBegun) (htask : relay.tasks[place]? = some task)
    (hrelay : task.component = .group .relay) (hplace : place ≠ main) : relay.Refuses place := by
  have hrun : relay.hasRun = true := h.hasRun.mpr ⟨main, first, hfirst, hmain, hbegun⟩
  have hnot : ¬task.HasBegun := fun hbegun' => hplace <|
    h.unique htask hfirst (fun _ => hbegun') (fun _ => hbegun) (hrelay.trans hmain.symm)
  have hfits := h.fits htask
  obtain ⟨component, token, phase⟩ := task
  obtain rfl : component = .group .relay := hrelay
  refine ⟨token, ?_⟩
  cases phase with
  | ready =>
      refine .inr ⟨htask, ?_⟩
      simp [step, poll?, htask, begin, beginRelay, hrun]
  | joining => exact absurd trivial hnot
  | driving => exact absurd trivial hnot
  | done failure =>
      cases failure with
      | none => exact absurd trivial hnot
      | some failure =>
          obtain rfl : failure = .relay .alreadyRunning := hfits
          exact .inl htask

/-! ## What is left of a relay whose run is done -/

/-- Everything in the relay has come to its end, and everything that was to be reported has been
reported. -/
structure HasDrained (relay : Relay) (seen : List Occurrence) : Prop where
  connection : ∀ id connection, relay.connection? id = some connection →
    connection.state = .closed ∧ connection.localAddress = none ∧
      ∃ failure, connection.life = .ended failure
  endpoint : ∀ server endpoint value, relay.endpoint? server endpoint = some value →
    value.fanOut.closed = true ∧ ∀ queue ∈ value.fanOut.sinks, queue.closed = true
  cancelled : relay.isCancelled .relay = true
  group : ∀ group path, relay.pathOf? group = some path →
    marksOf path seen = [.started, .stopped]
  /-- What a part reports of its beginning and its end lies between what the group above it
  reports of its own. -/
  within : ∀ component group path above, component.parent? = some group →
    relay.componentPath? component = some path → relay.pathOf? group = some above →
    ∀ kind before after, kind.mark?.isSome → seen = before ++ .event ⟨path, kind⟩ :: after →
      marksOf above before = [.started] ∧ marksOf above after = [.stopped]
  last : ∃ before failure after, seen = before ++ .event ⟨path, .stopped failure⟩ :: after ∧
    IsSilent after

theorem IsOrderly.hasDrained {seen : List Occurrence} (h : relay.IsOrderly seen)
    (hreturned : relay.HasReturned) : relay.HasDrained seen := by
  have hover : ∀ component path, relay.componentPath? component = some path →
      relay.IsOver component := fun component path hpath =>
    h.order.isOver hreturned (Option.isSome_iff_exists.mpr ⟨path, hpath⟩)
  have hgroup : ∀ group path, relay.pathOf? group = some path →
      marksOf path seen = [.started, .stopped] := by
    intro group path hpath
    obtain ⟨place, task, htask, hcomponent, hdone, hbegun⟩ := hover (.group group) path hpath
    rw [(h.groups group path hpath).marks_eq h.order htask hcomponent hbegun]
    cases hphase : task.phase with
    | done failure => rfl
    | _ => simp [hphase, TaskPhase.isDone] at hdone
  constructor
  case group => exact hgroup
  case last => exact h.ends hreturned
  case connection =>
    intro id connection hconnection
    obtain ⟨place, task, htask, hcomponent, hdone, -⟩ :=
      hover _ _ (componentPath?_connection hconnection)
    obtain ⟨failure, hlife⟩ := h.settled.ended htask hcomponent hdone hconnection
    have hstate : connection.state = connection.life.state := h.sound.coherent hconnection
    refine ⟨?_, h.tidy id connection hconnection ?_, failure, hlife⟩
    · rw [hstate, hlife]
      rfl
    · intro run await hrunning
      cases hlife.symm.trans hrunning
  case endpoint =>
    intro server endpoint value hvalue
    have hpath : relay.componentPath? (.group (.endpoint server endpoint)) = some value.path :=
      congrArg (Option.map Endpoint.path) hvalue
    obtain ⟨place, task, htask, hcomponent, hdone, hbegun⟩ := hover _ _ hpath
    have hclosed : value.fanOut.closed = true :=
      h.settled.stopped htask hcomponent hdone hbegun value hvalue
    refine ⟨hclosed, fun queue hqueue => ?_⟩
    rw [(h.sound.endpoint hvalue).isUniform queue hqueue, hclosed]
  case cancelled =>
    obtain ⟨place, task, htask, hcomponent, hdone, hbegun⟩ := hover (.group .relay) path rfl
    exact h.settled.stopped htask hcomponent hdone hbegun
  case within =>
    intro component group path above hparent hpath habove kind before after hmark hseen
    have hbefore := h.nested component group path above hparent hpath habove kind before after
      hmark hseen
    refine ⟨hbefore, ?_⟩
    have hne : path ≠ above := by
      rintro rfl
      exact parent_ne hparent (h.sound.hasOwnPaths _ (.group group) _ hpath habove)
    have hall := hgroup group above habove
    rw [hseen, ← List.singleton_append, marksOf_append, marksOf_append, hbefore,
      marksOf_of_kindsOf _ (kindsOf_event_of_ne above hne kind)] at hall
    simpa using hall

/-- Whatever follows the run of a relay, nothing is reported of it. -/
theorem IsOrderly.stays {seen : List Occurrence} (h : relay.IsOrderly seen)
    (hreturned : relay.HasReturned) {moves : List Move}
    (hmoves : ∀ move ∈ moves, move.RunsRelayOnly) :
    (relay.stepAll moves).relay.HasReturned ∧ IsSilent (relay.stepAll moves).occurrences := by
  have hall : (relay.stepAll moves).relay.IsOrderly (seen ++ (relay.stepAll moves).occurrences) ∧
      (relay.stepAll moves).relay.HasReturned ∧ IsSilent (relay.stepAll moves).occurrences :=
    stepAll_induction
      (motive := fun relay later => relay.IsOrderly (seen ++ later) ∧ relay.HasReturned ∧
        IsSilent later)
      ⟨by rwa [List.append_nil], hreturned, isSilent_nil⟩
      fun hmove ⟨horderly, hreturned, hsilent⟩ hdeed => by
        rw [← List.append_assoc]
        exact ⟨hdeed.isOrderly (hmoves _ hmove) horderly, hdeed.hasReturned hreturned,
          hsilent.append (hdeed.isSilent horderly.driven horderly.order horderly.settled hreturned)⟩
  exact hall.2

theorem stepAll_listens {seen : List Occurrence} (hsound : relay.IsSound) {id : ConnectionId}
    (hlistens : relay.Listens id seen) (moves : List Move) :
    (relay.stepAll moves).relay.Listens id (seen ++ (relay.stepAll moves).occurrences) := by
  refine hsound.stepAll_induction (motive := fun relay later => relay.Listens id (seen ++ later))
    (by rwa [List.append_nil]) ?_
  intro move before earlier next hsound hlistens hdeed
  rw [← List.append_assoc]
  exact hdeed.listens hsound.hasOwnPaths hlistens

/-- When the run of a relay is done, all of it has come to an end. Connections have reported
the beginning and the end of their runs unless they were closed before, and every listener has
been let go once since there was one. Nothing is reported from then on, and no other run of the
relay is ever begun. -/
theorem run_drains (config : Config) (moves : List Move)
    (hmoves : ∀ move ∈ moves, move.RunsRelayOnly) :
    let change := (ofConfig config).stepAll moves
    (change.relay.HasReturned →
      change.relay.HasDrained change.occurrences ∧
      (∀ id connection, change.relay.connection? id = some connection →
        marksOf connection.path change.occurrences = [.started, .stopped] ∨
          marksOf connection.path change.occurrences = [] ∧ ClosedEarly config moves id) ∧
      (∀ earlier rest id connection run await, moves = earlier ++ rest →
        let relay := ((ofConfig config).stepAll earlier).relay
        relay.connection? id = some connection → connection.life = .running run await →
          run.listening = true → releases id (relay.stepAll rest).occurrences = 1) ∧
      ∀ later, (∀ move ∈ later, move.RunsRelayOnly) →
        (change.relay.stepAll later).relay.HasReturned ∧
          IsSilent (change.relay.stepAll later).occurrences) ∧
    ∀ (main place : Nat) (first task : Task),
      change.relay.tasks[main]? = some first → first.component = .group .relay →
      first.HasBegun → change.relay.tasks[place]? = some task →
      task.component = .group .relay → place ≠ main → change.relay.Refuses place := by
  intro change
  have horderly : change.relay.IsOrderly change.occurrences := stepAll_isOrderly config hmoves
  constructor
  · intro hreturned
    have hdrained : change.relay.HasDrained change.occurrences :=
      horderly.hasDrained hreturned
    refine ⟨hdrained, ?_, ?_, fun later hlater => horderly.stays hreturned hlater⟩
    · intro id connection hconnection
      obtain ⟨-, -, failure, hlife⟩ := hdrained.connection id connection hconnection
      have hshows := horderly.connections id connection hconnection
      rw [hlife] at hshows
      rcases hshows with hnone | hboth
      · rcases unmarked_cases config moves hconnection hnone with hunstarted | hclosed
        · cases hlife.symm.trans hunstarted
        · exact .inr ⟨hnone, hclosed⟩
      · exact .inl hboth
    · intro earlier rest id connection run await hsplit relay hconnection hlife hlistening
      have hlistens : relay.Listens id [] := by
        intro other hother
        rw [hconnection] at hother
        obtain rfl := Option.some.inj hother
        exact .inl ⟨run, await, hlife, hlistening, rfl⟩
      have hsound : relay.IsSound := stepAll_isSound (ofConfig_isSound config) earlier
      have hlater := stepAll_listens hsound hlistens rest
      have hchange : change.relay = (relay.stepAll rest).relay := by
        simp only [change, hsplit, stepAll_append, Change.andThen]
        rfl
      have hsame := relay.map_path_stepAll rest id
      rw [hconnection] at hsame
      obtain ⟨last, hlast, -⟩ := Option.map_eq_some_iff.mp hsame
      obtain ⟨-, -, failure, hended⟩ := hdrained.connection id last (hchange ▸ hlast)
      rcases hlater last hlast with ⟨_, _, hrunning, -⟩ | ⟨_, -, hreleases⟩
      · cases hended.symm.trans hrunning
      · exact hreleases
  · intro main place first task hfirst hmain hbegun htask hrelay hplace
    exact horderly.order.refuses hfirst hmain hbegun htask hrelay hplace

/-- The relay is run twice at once. Its client is closed before the client is run, and its host
gets a listener. -/
def listeningMoves : List Move :=
  [.run (.group .relay) (.caller 0), .run (.group .relay) (.caller 1), .poll 0, .poll 2, .poll 3,
    .close (.connection ⟨0, 0, 1⟩), .poll 4, .signal ⟨0, 0, 0⟩ (.bound (.ok none)), .poll 5]

/-- The second run is refused, and the signal of the first is given. The host stops, and the
tasks above it join those below them. -/
def stoppingMoves : List Move :=
  [.poll 1, .cancel (.caller 0), .poll 0, .signal ⟨0, 0, 0⟩ .woken, .poll 4, .poll 3, .poll 3,
    .poll 3, .poll 2, .poll 2, .poll 0, .poll 0]

/-- A host that waits for its peer lets go of its listener when the relay is told to stop. Closing
the relay and running it once more is without effect. -/
theorem run_drains_pair :
    let change := (ofConfig pairConfig).stepAll (listeningMoves ++ stoppingMoves)
    let listening := ((ofConfig pairConfig).stepAll listeningMoves).relay
    let host := ComponentPath.mk "relay/server[0]/endpoint[0]/connection[0:host:1]"
    change.relay.HasReturned ∧ change.relay.HasDrained change.occurrences ∧
      marksOf host change.occurrences = [.started, .stopped] ∧
      releases ⟨0, 0, 0⟩ (listening.stepAll stoppingMoves).occurrences = 1 ∧
      change.relay.Refuses 1 ∧
      IsSilent (change.relay.stepAll
        [.close (.group .relay), .run (.group .relay) (.caller 2), .poll 6]).occurrences := by
  intro change listening host
  have hmoves : ∀ move ∈ listeningMoves ++ stoppingMoves, move.RunsRelayOnly := by
    simp [listeningMoves, stoppingMoves, Move.RunsRelayOnly]
  obtain ⟨hreturns, hrefuses⟩ := run_drains pairConfig (listeningMoves ++ stoppingMoves) hmoves
  have hmain : change.relay.tasks[0]? = some ⟨.group .relay, .caller 0, .done none⟩ := by
    decide +kernel
  have hsecond : change.relay.tasks[1]? =
      some ⟨.group .relay, .caller 1, .done (some (.relay .alreadyRunning))⟩ := by
    decide +kernel
  have hreturned : change.relay.HasReturned := ⟨0, .caller 0, hmain⟩
  obtain ⟨hdrained, hmarked, hreleased, hsilent⟩ := hreturns hreturned
  refine ⟨hreturned, hdrained, ?_, ?_, ?_, ?_⟩
  · have hpath : (change.relay.connection? ⟨0, 0, 0⟩).map Connection.path = some host := by
      decide +kernel
    have hreported : marksOf host change.occurrences ≠ [] := by decide +kernel
    obtain ⟨connection, hconnection, hhost⟩ := Option.map_eq_some_iff.mp hpath
    rcases hmarked _ _ hconnection with hboth | ⟨hnone, -⟩
    · rwa [hhost] at hboth
    · rw [hhost] at hnone
      exact absurd hnone hreported
  · have hlife : (listening.connection? ⟨0, 0, 0⟩).map Connection.life =
        some (.running ⟨.relay, ⟨.unlimited, 0⟩, true⟩ .accepting) := by
      decide +kernel
    obtain ⟨connection, hconnection, hlife⟩ := Option.map_eq_some_iff.mp hlife
    exact hreleased listeningMoves stoppingMoves _ _ _ _ rfl hconnection hlife rfl
  · exact hrefuses 0 1 _ _ hmain rfl trivial hsecond rfl nofun
  · exact (hsilent _ (by simp [Move.RunsRelayOnly])).2

end Relay

end LiveRelay
