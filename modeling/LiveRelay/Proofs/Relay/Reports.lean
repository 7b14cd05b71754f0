import LiveRelay.Proofs.Relay.Listing
import LiveRelay.Proofs.Relay.Staff

/-! # Who has reported what

In a log the events of all parts of the tree follow each other as they come, and a part is known
by its path alone. The paths being different, what the log finds for a path are the reports of
that part, all of them and in their order, however the reports of the others lie in between.
-/

namespace LiveRelay

namespace EventLog

/-- The log of events that happen in this order. -/
def ofEvents (events : List Event) : EventLog := events.foldl record {}

theorem events_foldl_record (events : List Event) (log : EventLog) :
    (events.foldl record log).events = log.events ++ events := by
  induction events generalizing log with
  | nil => exact (List.append_nil _).symm
  | cons event events ih =>
      rw [List.foldl_cons, ih, record, List.append_assoc, List.singleton_append]

/-- The log finds the events with that path. -/
theorem eventsFor_ofEvents (events : List Event) (path : ComponentPath) :
    (ofEvents events).eventsFor path.text =
      (events.filter (·.path = path)).map Event.kind := by
  have hsame : ∀ event : Event, event.path.text = path.text ↔ event.path = path :=
    fun event => ⟨fun htext => congrArg ComponentPath.mk htext, congrArg ComponentPath.text⟩
  rw [eventsFor, ofEvents, events_foldl_record]
  simp only [List.nil_append, hsame]

/-- A log answers the questions about a path with these events. -/
structure Answers (log : EventLog) (path : ComponentPath) (kinds : List EventKind) : Prop where
  events : log.eventsFor path.text = kinds
  transitions : log.transitionsFor path.text = kinds.filterMap EventKind.states?

theorem answers_of_eventsFor {log : EventLog} {path : ComponentPath} {kinds : List EventKind}
    (h : log.eventsFor path.text = kinds) : log.Answers path kinds :=
  ⟨h, congrArg (List.filterMap EventKind.states?) h⟩

end EventLog

/-- Something that a part of the tree has to report. -/
structure Report where
  component : Component
  kind : EventKind

namespace Relay

variable {relay : Relay} {component : Component} {path : ComponentPath}

/-! ## Reports in any order -/

/-- The event of a report: it carries the path of the part that makes it. -/
def eventOf? (relay : Relay) (report : Report) : Option Event :=
  (relay.componentPath? report.component).map (⟨·, report.kind⟩)

/-- The log of reports that are made in this order. -/
def logOf (relay : Relay) (reports : List Report) : EventLog :=
  .ofEvents (reports.filterMap relay.eventOf?)

/-- Whatever the order is, the log finds for every part what that part has reported. -/
theorem HasOwnPaths.answers_logOf (h : relay.HasOwnPaths)
    (hpath : relay.componentPath? component = some path) (reports : List Report) :
    (relay.logOf reports).Answers path
      ((reports.filter (·.component = component)).map Report.kind) := by
  apply EventLog.answers_of_eventsFor
  rw [logOf, EventLog.eventsFor_ofEvents]
  induction reports with
  | nil => rfl
  | cons report reports ih =>
      by_cases hown : report.component = component
      · have hevent : relay.eventOf? report = some ⟨path, report.kind⟩ := by
          rw [eventOf?, hown, hpath]
          rfl
        rw [List.filterMap_cons_some hevent, List.filter_cons_of_pos (by simp),
          List.filter_cons_of_pos (by simpa using hown), List.map_cons, List.map_cons, ih]
      · rw [List.filter_cons_of_neg (by simpa using hown), ← ih]
        cases hevent : relay.eventOf? report with
        | none => rw [List.filterMap_cons_none hevent]
        | some event =>
            obtain ⟨other, hother, rfl⟩ := Option.map_eq_some_iff.mp hevent
            have hne : other ≠ path := by
              rintro rfl
              exact hown (h _ _ _ hother hpath)
            rw [List.filterMap_cons_some hevent, List.filter_cons_of_neg (by simpa using hne)]

/-! ## The reports of a run -/

end Relay

/-- Everything that has been reported, by whomever. -/
def kindsIn (seen : List Occurrence) : List EventKind :=
  seen.filterMap fun
    | .event event => some event.kind
    | _ => none

theorem kindsOf_of_forall {path : ComponentPath} {seen : List Occurrence}
    (h : ∀ event, .event event ∈ seen → event.path = path) : kindsOf path seen = kindsIn seen := by
  apply List.filterMap_congr
  intro occurrence hmem
  cases occurrence with
  | event event => exact if_pos (h event hmem)
  | _ => rfl

theorem kindsOf_of_forall_ne {path : ComponentPath} {seen : List Occurrence}
    (h : ∀ event, .event event ∈ seen → event.path ≠ path) : kindsOf path seen = [] := by
  rw [kindsOf, List.filterMap_eq_nil_iff]
  intro occurrence hmem
  cases occurrence with
  | event event => exact if_neg (h event hmem)
  | _ => rfl

/-- The event log of a run. -/
def EventLog.ofOccurrences (seen : List Occurrence) : EventLog :=
  .ofEvents (seen.filterMap fun
    | .event event => some event
    | _ => none)

theorem EventLog.eventsFor_ofOccurrences (seen : List Occurrence) (path : ComponentPath) :
    (EventLog.ofOccurrences seen).eventsFor path.text = kindsOf path seen := by
  rw [ofOccurrences, eventsFor_ofEvents, kindsOf, ← List.filterMap_eq_map,
    ← List.filterMap_eq_filter, List.filterMap_filterMap, List.filterMap_filterMap]
  apply List.filterMap_congr
  intro occurrence _
  cases occurrence with
  | event event =>
      simp only [Occurrence.kind?, Option.bind_some, Option.guard]
      split_ifs <;> simp_all
  | _ => rfl

instance (component : Component) (id : ConnectionId) : Decidable (component.Covers id) :=
  match component with
  | .group .relay => inferInstanceAs (Decidable True)
  | .group (.server server) => inferInstanceAs (Decidable (id.server = server))
  | .group (.endpoint server endpoint) =>
      inferInstanceAs (Decidable (id.server = server ∧ id.endpoint = endpoint))
  | .connection other => inferInstanceAs (Decidable (other = id))

namespace Relay

variable {relay : Relay} {component : Component} {path : ComponentPath}

/-- What a part of the tree reports in a move. A task reports for what it runs, a signal makes
its connection report, and so does closing with each connection that it reaches. -/
def reportsIn (relay : Relay) (component : Component) : Move → List EventKind
  | .poll place =>
      if relay.tasks[place]?.map Task.component = some component then
        kindsIn (relay.step (.poll place)).occurrences
      else []
  | .signal id signal =>
      if component = .connection id then kindsIn (relay.signal id signal).occurrences else []
  | .close whole =>
      match component with
      | .connection id =>
          if whole.Covers id then kindsIn (relay.close (.connection id)).occurrences else []
      | .group _ => []
  | _ => []

/-- What a part of the tree reports in these moves, in order. -/
def reportsOf (component : Component) : Relay → List Move → List EventKind
  | _, [] => []
  | relay, move :: moves =>
      relay.reportsIn component move ++ reportsOf component (relay.step move).relay moves

theorem reportsOf_append_singleton (relay : Relay) (moves : List Move) (move : Move) :
    relay.reportsOf component (moves ++ [move]) =
      relay.reportsOf component moves ++ (relay.stepAll moves).relay.reportsIn component move := by
  induction moves generalizing relay with
  | nil => exact List.append_nil _
  | cons first moves ih =>
      rw [List.cons_append, reportsOf, reportsOf, ih, stepAll_cons, List.append_assoc]
      rfl

/-! ### What a connection reports -/

/-- Acts of a connection are reported under its path. -/
theorem path_of_act {id : ConnectionId} {act : Act} {event : Event}
    (h : .event event ∈ (relay.act id act).occurrences) :
    relay.componentPath? (.connection id) = some event.path := by
  cases hconnection : relay.connection? id with
  | none =>
      rw [act_of_none hconnection] at h
      cases h
  | some connection =>
      obtain ⟨fanOut, -, hoccurrences, -, -⟩ := act_of_some hconnection act
      rw [hoccurrences, Turn.occurrences_eq, (connection.act_passes fanOut act).path_eq] at h
      obtain ⟨effect, -, hevent⟩ := List.mem_map.mp h
      cases effect with
      | emit kind =>
          obtain rfl := Occurrence.event.inj hevent
          exact componentPath?_connection hconnection
      | request => cases hevent

/-- What all events of a move being reports of one part comes to for each part. -/
theorem kindsOf_of_source (hpaths : relay.HasOwnPaths)
    (hpath : relay.componentPath? component = some path) {source : Component}
    {seen : List Occurrence}
    (h : ∀ event, .event event ∈ seen → relay.componentPath? source = some event.path) :
    kindsOf path seen = if source = component then kindsIn seen else [] := by
  split_ifs with hsame
  · subst hsame
    apply kindsOf_of_forall
    exact fun event hmem => Option.some.inj ((h event hmem).symm.trans hpath)
  · apply kindsOf_of_forall_ne
    rintro event hmem rfl
    exact hsame (hpaths _ _ _ (h event hmem) hpath)

/-! ### What a task reports -/

/-- Every task that waits for others runs a group of the tree. -/
def JoinsParts (relay : Relay) : Prop :=
  ∀ (place : Nat) (group : Group) (token : Token) (children : List Nat) (failures : Nat),
    relay.tasks[place]? = some ⟨.group group, token, .joining children failures⟩ →
    (relay.pathOf? group).isSome

theorem IsManned.joinsParts {staff : Nat → List Nat} {seen : List Occurrence}
    (h : relay.IsManned staff seen) : relay.JoinsParts := by
  intro place group token children failures htask
  obtain ⟨path, hpath⟩ := (h.course htask).pathOf?_isSome
  exact Option.isSome_of_eq_some hpath

theorem path_of_beginGroup {place : Nat} {group : Group} {token : Token} {event : Event}
    (h : .event event ∈ (relay.beginGroup place group token).occurrences) :
    relay.pathOf? group = some event.path := by
  unfold beginGroup at h
  split at h
  next => cases h
  next path hpath =>
    obtain rfl : event = ⟨path, .started⟩ := by simpa using h
    exact hpath

theorem path_of_beginRelay {place : Nat} {token : Token} {event : Event}
    (h : .event event ∈ (relay.beginRelay place token).occurrences) :
    relay.pathOf? .relay = some event.path := by
  have hbegins : .event event ∈
      ({ relay with hasRun := true }.beginGroup place .relay token).occurrences := by
    unfold beginRelay at h
    split_ifs at h
    · cases h
    · dsimp only at h
      split at h
      next => exact h
      next => simpa using h
  have hpath := path_of_beginGroup hbegins
  exact hpath

theorem path_of_advanceGroup? {place : Nat} {group : Group} {token : Token} {children : List Nat}
    {failures : Nat} {change : Change} (hpart : (relay.pathOf? group).isSome)
    (hadvance : relay.advanceGroup? place group token children failures = some change)
    {event : Event} (h : .event event ∈ change.occurrences) :
    relay.pathOf? group = some event.path := by
  obtain ⟨path, hpath⟩ := Option.isSome_iff_exists.mp hpart
  unfold advanceGroup? at hadvance
  split at hadvance
  next child _ =>
    obtain rfl := Option.some.inj hadvance
    unfold join at h
    dsimp only at h
    split at h
    next => simp at h
    next => cases h
  next =>
    split_ifs at hadvance
    · obtain rfl := Option.some.inj hadvance
      simp only [endGroup, hpath, Option.getD_some] at h
      obtain rfl : event = ⟨path, .stopped (stopText? group path failures)⟩ := by simpa using h
      exact hpath
    · obtain rfl := Option.some.inj hadvance
      unfold stop at h
      split_ifs at h
      · cases h
      · simp at h

/-- What is reported when a task is looked at is reported under the path of what it runs. -/
theorem path_of_poll (hjoins : relay.JoinsParts) {place : Nat} {event : Event}
    (h : .event event ∈ (relay.step (.poll place)).occurrences) :
    ∃ task, relay.tasks[place]? = some task ∧
      relay.componentPath? task.component = some event.path := by
  simp only [step] at h
  cases hpoll : relay.poll? place with
  | none =>
      rw [hpoll] at h
      cases h
  | some change =>
      rw [hpoll, Option.getD_some] at h
      obtain ⟨⟨component, token, phase⟩, htask, hnext⟩ := Option.bind_eq_some_iff.mp hpoll
      refine ⟨_, htask, ?_⟩
      cases component with
      | connection id =>
          rcases poll?_connection htask hpoll with ⟨rfl, rfl⟩ | ⟨later, rfl⟩
          · exact path_of_act h
          · cases h
      | group group =>
          cases phase with
          | ready =>
              obtain rfl := Option.some.inj hnext
              cases group with
              | relay => exact path_of_beginRelay h
              | server => exact path_of_beginGroup h
              | endpoint => exact path_of_beginGroup h
          | joining children failures =>
              exact path_of_advanceGroup? (hjoins _ _ _ _ _ htask) hnext h
          | driving => cases hnext
          | done => cases hnext

/-! ### What closing reports -/

/-- What closing a part keeps is kept by closing one part after the other. -/
theorem closeEach_induction {close : Relay → Nat → Change} {motive : Change → Prop}
    (h : ∀ change index, motive change → motive (change.andThen (close · index))) (count : Nat)
    {change : Change} (hbegin : motive change) :
    motive (change.andThen (closeEach close count)) := by
  induction count with
  | zero =>
      have hnothing : change.andThen (closeEach close 0) = change :=
        congrArg (Change.mk change.relay) (List.append_nil _)
      rwa [hnothing]
  | succ count ih =>
      have hsplit : change.andThen (closeEach close (count + 1)) =
          (change.andThen (closeEach close count)).andThen (close · count) := by
        simp only [Change.andThen, closeEach_succ, List.append_assoc]
      rw [hsplit]
      exact h _ count ih

/-- Closing a component closes each of the connections in it. Between them, tokens are cancelled
and fan-outs are closed, of which nothing is seen and no connection knows. -/
theorem close_induction {motive : Change → Prop}
    (hquiet : ∀ change later, TreeStep change.relay later →
      (∀ id, later.connection? id = change.relay.connection? id) → motive change →
      motive ⟨later, change.occurrences⟩)
    (hconnection : ∀ change id, component.Covers id → motive change →
      motive (change.andThen (·.act id .close)))
    (hbegin : motive ⟨relay, []⟩) : motive (relay.close component) := by
  have hendpoint : ∀ (change : Change) (server endpoint : Nat),
      component.Holds server endpoint → motive change →
      motive (change.andThen (·.closeEndpoint server endpoint)) := by
    intro change server endpoint hholds hchange
    have hstopped := hquiet change _ (closeFanOut_treeStep _ server endpoint)
      (connection?_closeFanOut _ server endpoint) hchange
    exact closeEach_induction (fun change index => hconnection change _ (hholds.covers index))
      (change.relay.sizeOf (.endpoint server endpoint)) hstopped
  have hserver : ∀ (change : Change) (server : Nat), (∀ endpoint, component.Holds server endpoint) →
      motive change → motive (change.andThen (·.closeServer server)) := by
    intro change server hholds hchange
    exact closeEach_induction
      (fun change endpoint => hendpoint change server endpoint (hholds endpoint)) _ hchange
  -- To begin with, nothing has been seen.
  have hfirst : ∀ next : Relay → Change, motive ((⟨relay, []⟩ : Change).andThen next) →
      motive (next relay) := fun next hnext => hnext
  cases component with
  | connection id => exact hfirst (·.act id .close) (hconnection _ id rfl hbegin)
  | group group =>
      cases group with
      | relay =>
          have hcancelled := hquiet _ _ (.rests (servers_cancel relay .relay))
            (connection?_congr (servers_cancel relay .relay)) hbegin
          exact closeEach_induction (fun change server => hserver change server fun _ => trivial)
            (relay.sizeOf .relay) hcancelled
      | server server =>
          apply hfirst (·.closeServer server)
          apply hserver _ server _ hbegin
          exact fun _ => rfl
      | endpoint server endpoint =>
          apply hfirst (·.closeEndpoint server endpoint)
          apply hendpoint _ server endpoint _ hbegin
          exact ⟨rfl, rfl⟩

/-- Closing reports nothing for a part that is none of the connections closed. -/
theorem kindsOf_close_other (hpaths : relay.HasOwnPaths)
    (hpath : relay.componentPath? component = some path) {whole : Component}
    (hother : ∀ id, whole.Covers id → component ≠ .connection id) :
    kindsOf path (relay.close whole).occurrences = [] := by
  -- The tree keeps its paths while its connections are closed.
  let motive (change : Change) : Prop :=
    (∀ part, change.relay.componentPath? part = relay.componentPath? part) ∧
      kindsOf path change.occurrences = []
  have hall : motive (relay.close whole) := by
    apply close_induction
    · rintro change later htree - ⟨hsame, hnone⟩
      exact ⟨fun part => (htree.componentPath? part).trans (hsame part), hnone⟩
    · rintro change id hcovers ⟨hsame, hnone⟩
      have htree := act_treeStep change.relay id .close
      refine ⟨fun part => (htree.componentPath? part).trans (hsame part), ?_⟩
      have hact : kindsOf path (change.relay.act id .close).occurrences = [] := by
        apply kindsOf_act
        rw [hsame]
        exact fun hown => hother id hcovers (hpaths _ _ _ hpath hown)
      rw [Change.andThen, kindsOf_append, hnone, hact, List.append_nil]
    · exact ⟨fun _ => rfl, rfl⟩
  exact hall.2

/-- Closing a connection shows the same whatever is in the queues. -/
theorem occurrences_act_close {later : Relay} {id : ConnectionId}
    (h : later.connection? id = relay.connection? id) :
    (later.act id .close).occurrences = (relay.act id .close).occurrences := by
  cases hconnection : relay.connection? id with
  | none => rw [act_of_none hconnection, act_of_none (h.trans hconnection)]
  | some connection =>
      obtain ⟨fanOut, -, hoccurrences, -, -⟩ := act_of_some hconnection .close
      obtain ⟨fanOut', -, hoccurrences', -, -⟩ := act_of_some (h.trans hconnection) .close
      rw [hoccurrences, hoccurrences']
      unfold Connection.act Connection.close
      dsimp only
      split <;> rfl

/-- Closing a component reports of a connection in it what closing that connection does. -/
theorem kindsOf_close_covered (hpaths : relay.HasOwnPaths) {id : ConnectionId}
    (hpath : relay.componentPath? (.connection id) = some path) {whole : Component}
    (hcovers : whole.Covers id) :
    kindsOf path (relay.close whole).occurrences = kindsIn (relay.act id .close).occurrences := by
  have hown : kindsOf path (relay.act id .close).occurrences =
      kindsIn (relay.act id .close).occurrences := by
    rw [kindsOf_of_source hpaths hpath fun _ hmem => path_of_act hmem, if_pos rfl]
  -- Either the connection has not been reached yet, or it has been closed.
  let motive (change : Change) : Prop :=
    (∀ part, change.relay.componentPath? part = relay.componentPath? part) ∧
      (change.relay.connection? id = relay.connection? id ∧
          kindsOf path change.occurrences = [] ∨
        change.relay.HasAsked id ∧ kindsOf path change.occurrences =
          kindsOf path (relay.act id .close).occurrences)
  have hall : motive (relay.close whole) := by
    apply close_induction
    · rintro change later htree hkept ⟨hsame, hcases⟩
      refine ⟨fun part => (htree.componentPath? part).trans (hsame part), ?_⟩
      exact hcases.imp (fun h => ⟨(hkept id).trans h.1, h.2⟩) fun h => ⟨h.1.congr (hkept id), h.2⟩
    · rintro change actor - ⟨hsame, hcases⟩
      have htree := act_treeStep change.relay actor .close
      refine ⟨fun part => (htree.componentPath? part).trans (hsame part), ?_⟩
      rw [Change.andThen]
      by_cases hactor : id = actor
      · subst hactor
        right
        refine ⟨hasAsked_act_close change.relay id, ?_⟩
        rcases hcases with ⟨hconnection, hnone⟩ | ⟨hasked, hkinds⟩
        · rw [kindsOf_append, hnone, occurrences_act_close hconnection, List.nil_append]
        · rw [act_close_of_hasAsked hasked, List.append_nil, hkinds]
      · have hkept := connection?_act_of_ne hactor change.relay .close
        have hact : kindsOf path (change.relay.act actor .close).occurrences = [] := by
          apply kindsOf_act
          rw [hsame]
          intro hsource
          exact hactor (Component.connection.inj (hpaths _ _ _ hpath hsource))
        rw [kindsOf_append, hact, List.append_nil]
        exact hcases.imp (fun h => ⟨hkept.trans h.1, h.2⟩) fun h => ⟨h.1.act_close actor, h.2⟩
    · exact ⟨fun _ => rfl, .inl ⟨rfl, rfl⟩⟩
  rw [← hown]
  rcases hall.2 with ⟨hconnection, hnone⟩ | ⟨-, hkinds⟩
  · -- It was closed before, if it is closed now and has never been reached.
    have hasked := ((close_isClosed relay whole).asked id hcovers).congr hconnection.symm
    rw [hnone, act_close_of_hasAsked hasked]
    rfl
  · exact hkinds

/-! ### What is found for each part -/

/-- What is found of a move under the path of a part is what that part has reported in it. -/
theorem kindsOf_step (hpaths : relay.HasOwnPaths) (hjoins : relay.JoinsParts)
    (hpath : relay.componentPath? component = some path) (move : Move) :
    kindsOf path (relay.step move).occurrences = relay.reportsIn component move := by
  cases move with
  | run => rfl
  | cancel => rfl
  | expire place =>
      simp only [step, expire, reportsIn]
      split
      next =>
        apply kindsOf_notes
        unfold stop
        split_ifs <;> simp [Occurrence.isNote]
      next => rfl
  | poll place =>
      simp only [reportsIn]
      cases htask : relay.tasks[place]? with
      | none =>
          apply kindsOf_of_forall_ne
          intro event hmem
          obtain ⟨task, htask', -⟩ := path_of_poll hjoins hmem
          cases htask.symm.trans htask'
      | some task =>
          simp only [Option.map_some, Option.some.injEq]
          apply kindsOf_of_source hpaths hpath
          intro event hmem
          obtain ⟨task', htask', hsource⟩ := path_of_poll hjoins hmem
          obtain rfl := Option.some.inj (htask.symm.trans htask')
          exact hsource
  | signal id signal =>
      have hsource : ∀ event, .event event ∈ (relay.signal id signal).occurrences →
          relay.componentPath? (.connection id) = some event.path := by
        intro event hmem
        cases hconnection : relay.connection? id with
        | none =>
            rw [Relay.signal, stepConnection_of_none hconnection] at hmem
            cases hmem
        | some connection =>
            rw [signal_eq_act hconnection] at hmem
            exact path_of_act hmem
      simp only [reportsIn, step, kindsOf_of_source hpaths hpath hsource, eq_comm]
  | close whole =>
      simp only [step]
      cases component with
      | group group =>
          apply kindsOf_close_other hpaths hpath
          intro id _ hsame
          cases hsame
      | connection id =>
          simp only [reportsIn]
          split_ifs with hcovers
          · exact kindsOf_close_covered hpaths hpath hcovers
          · apply kindsOf_close_other hpaths hpath
            rintro other hother hsame
            obtain rfl := Component.connection.inj hsame
            exact hcovers hother

/-- What is found of a run under the path of a part is what that part has reported in it. -/
theorem kindsOf_stepAll (config : Config)
    (hpath : (ofConfig config).componentPath? component = some path) (moves : List Move) :
    kindsOf path ((ofConfig config).stepAll moves).occurrences =
      (ofConfig config).reportsOf component moves := by
  induction moves using List.reverseRecOn with
  | nil => rfl
  | append_singleton moves move ih =>
      have hpaths := (stepAll_isSound (ofConfig_isSound config) moves).hasOwnPaths
      have hjoins := (stepAll_isManned config moves).joinsParts
      rw [← componentPath?_stepAll _ moves] at hpath
      rw [stepAll_append_singleton, reportsOf_append_singleton, Change.andThen, kindsOf_append, ih,
        kindsOf_step hpaths hjoins hpath]

/-- The paths of a configuration tell the parts of its tree apart. -/
structure TellsApart (config : Config) : Prop where
  /-- No two parts of the tree have the same path, -/
  hasOwnPaths : (ofConfig config).HasOwnPaths
  /-- and each keeps the one it has. -/
  keepsPath : ∀ moves component, ((ofConfig config).stepAll moves).relay.componentPath? component =
    (ofConfig config).componentPath? component
  /-- The connections are those of the configured addresses. -/
  connections : ∀ id path, (ofConfig config).componentPath? (.connection id) = some path ↔
    ∃ entry ∈ config.entries, entry.id = id ∧ entry.path = path
  /-- The status has one line for each address, in the order of the tree. -/
  status : ∀ moves,
    ((ofConfig config).stepAll moves).relay.status.connections.map ConnectionStatus.listing =
      config.entries.map Entry.listing
  /-- The log finds the reports of a part, whatever others report in between, -/
  log : ∀ component path, (ofConfig config).componentPath? component = some path →
    ∀ reports, ((ofConfig config).logOf reports).Answers path
      ((reports.filter (·.component = component)).map Report.kind)
  /-- and so does the log of a run. -/
  run : ∀ component path, (ofConfig config).componentPath? component = some path →
    ∀ moves, (EventLog.ofOccurrences ((ofConfig config).stepAll moves).occurrences).Answers path
      ((ofConfig config).reportsOf component moves)

/-- The paths of every configuration do, whatever the names and addresses in it are. -/
theorem ofConfig_tellsApart (config : Config) : TellsApart config := by
  constructor
  case hasOwnPaths => exact ofConfig_hasOwnPaths config
  case keepsPath => exact componentPath?_stepAll (ofConfig config)
  case connections => exact fun id path => componentPath?_connection_iff
  case status => exact map_listing_stepAll config
  case log =>
    intro component path hpath reports
    exact (ofConfig_hasOwnPaths config).answers_logOf hpath reports
  case run =>
    intro component path hpath moves
    apply EventLog.answers_of_eventsFor
    rw [EventLog.eventsFor_ofOccurrences]
    exact kindsOf_stepAll config hpath moves

end Relay

end LiveRelay
