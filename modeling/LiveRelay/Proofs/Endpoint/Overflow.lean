import LiveRelay.Proofs.Connection.Drops
import LiveRelay.Proofs.Endpoint.Histories

/-! # Overflow in an endpoint

What the queues of an endpoint have given up grows, whatever happens. So the reports of each sink
account for its queue up to the moment at which its last link has ended (`sinks_reportDrops`,
`stoppedSinks_report`). A sink that has no link does not look at its queue: when its run ends
before it gets one, there is no report of what was given up in the meantime
(`overflow_unreported`).
-/

namespace LiveRelay

namespace Connection

theorem dropped_le_act (connection : Connection) (fanOut : FanOut) (act : Act) (sink : Nat) :
    fanOut.dropped sink ≤ (connection.act fanOut act).fanOut.dropped sink := by
  rcases (connection.act_handled fanOut act).fanOut_eq with
    ⟨-, hfanOut⟩ | ⟨-, other, frame, -, -, hpop⟩
  · rw [hfanOut]
    exact fanOut.dropped_le_publishAll _ sink
  · exact (FanOut.dropped_pop hpop sink).ge

end Connection

namespace Endpoint

variable {endpoint : Endpoint} {index sink : Nat} {connection : Connection}

theorem dropped_le_act (endpoint : Endpoint) (act : EndpointAct) (sink : Nat) :
    endpoint.fanOut.dropped sink ≤ (endpoint.act act).fanOut.dropped sink := by
  cases act with
  | closeFanOut => exact (endpoint.fanOut.dropped_close sink).ge
  | connection index act =>
      unfold Endpoint.act
      simp only []
      split
      next => exact Nat.le_refl _
      next connection _ => exact connection.dropped_le_act endpoint.fanOut act sink

/-- Whatever happens to an endpoint, each of its connections sees the queues give up more and
more. -/
theorem dropsGrow_occasions (endpoint : Endpoint) (index sink : Nat) (acts : List EndpointAct)
    {least : Nat} (hleast : least ≤ endpoint.fanOut.dropped sink) :
    DropsGrow sink least (endpoint.occasions index acts) := by
  induction acts generalizing endpoint least with
  | nil => trivial
  | cons act acts ih =>
      let step : EndpointStep := ⟨endpoint, act⟩
      have hgrows : endpoint.fanOut.dropped sink ≤ step.after.fanOut.dropped sink :=
        endpoint.dropped_le_act act sink
      have hoccasions : endpoint.occasions index (act :: acts) =
          step.occasions index ++ step.after.occasions index acts := rfl
      rw [hoccasions]
      rcases step.occasions_cases index with ⟨own, -, hown⟩ | ⟨-, hnone⟩
      · rw [hown]
        exact ⟨hleast, ih _ hgrows⟩
      · rw [hnone]
        exact ih _ (hleast.trans hgrows)

theorem isSink_of_ofConfig {parent : ComponentPath} {place : Nat} {config : EndpointConfig}
    (hconnection : (ofConfig parent place config).connections[index]? = some connection)
    (hpath : connection.framePath = .deliver sink) :
    connection.IsSink sink ∧ connection.droppedReported = 0 := by
  obtain ⟨path, settings, framePath, rfl⟩ :=
    connection_ofConfig (List.mem_of_getElem? hconnection)
  obtain rfl : framePath = .deliver sink := hpath
  exact ⟨Connection.ofConfig_isSink path settings sink, rfl⟩

/-- Whatever happens to an endpoint, each of its sinks reports what its queue gives up: every
report goes on from the one before it, and whenever a link has ended, everything is reported that
had been given up until then. -/
theorem sinks_reportDrops (parent : ComponentPath) (place : Nat) (config : EndpointConfig)
    (hconnection : (ofConfig parent place config).connections[index]? = some connection)
    (hpath : connection.framePath = .deliver sink) (acts : List EndpointAct) :
    let occasions := (ofConfig parent place config).occasions index acts
    ((ofConfig parent place config).afterAll acts).connections[index]? =
        some (connection.afterAll occasions) ∧
      ReportsDrops sink (connection.history occasions) := by
  intro occasions
  obtain ⟨hsink, hnone⟩ := isSink_of_ofConfig hconnection hpath
  have hgrow : DropsGrow sink 0 occasions :=
    dropsGrow_occasions _ index sink acts (Nat.zero_le _)
  exact ⟨connection_afterAll_eq hconnection acts, hsink.reportsDrops hnone hgrow⟩

/-- The source of the narrow endpoint reads this frame. -/
def arrival (byte : UInt8) : EndpointAct :=
  .connection 0 (.poll false (.received (.ok [byte].toByteArray)))

/-- Two frames arrive before the sink has a link, two while it writes to the first link, which
breaks then, and one while it waits to try again. -/
def brokenLinkActs : List EndpointAct :=
  [.connection 0 (.run .relay false), .connection 1 (.run .relay false),
    .connection 0 (.poll false (.dialled (.ok ()))), arrival 1, arrival 2,
    .connection 1 (.poll false (.dialled (.ok ()))), .connection 1 (.poll false .woken),
    arrival 3, arrival 4, .connection 1 (.poll false (.wrote (.error "reset"))), arrival 5]

/-- One more frame arrives when the sink has a link again, and the sink is told to stop. -/
def nextLinkActs : List EndpointAct :=
  [.connection 1 (.poll false .rested), .connection 1 (.poll false (.dialled (.ok ()))),
    arrival 6, .connection 1 (.poll true .woken)]

theorem sinks_reportDrops_twoLinks :
    let endpoint := ofConfig .root 0 narrowConfig
    let occasions := endpoint.occasions 1 (brokenLinkActs ++ nextLinkActs)
    ∃ connection, endpoint.connections[1]? = some connection ∧
      connection.framePath = .deliver 0 ∧ ReportsDrops 0 (connection.history occasions) ∧
      dropReportsIn (connection.history occasions) = [⟨1, 1⟩, ⟨1, 2⟩, ⟨2, 4⟩] ∧
      ((reported (connection.history occasions)).filter (·.source = .active)).map (·.target) =
        [.reconnecting, .draining] := by
  intro endpoint occasions
  have hreported : endpoint.connections[1]?.map (fun connection => (connection.framePath,
      dropReportsIn (connection.history occasions),
      ((reported (connection.history occasions)).filter (·.source = .active)).map (·.target))) =
        some (.deliver 0, [⟨1, 1⟩, ⟨1, 2⟩, ⟨2, 4⟩], [.reconnecting, .draining]) := by
    decide +kernel
  obtain ⟨connection, hconnection, hsame⟩ := Option.map_eq_some_iff.mp hreported
  obtain ⟨hpath, hsame⟩ := Prod.mk.inj hsame
  obtain ⟨hreports, hleft⟩ := Prod.mk.inj hsame
  obtain ⟨-, hdrops⟩ := sinks_reportDrops .root 0 narrowConfig hconnection hpath
    (brokenLinkActs ++ nextLinkActs)
  exact ⟨connection, hconnection, hpath, hdrops, hreports, hleft⟩

/-! ### The end of a run -/

/-- Everything that the queue of a sink has given up is reported when the run of the sink stops. -/
def ReportsOverflow (sink : Nat) (steps : List Step) : Prop :=
  ∀ earlier step later, steps = earlier ++ step :: later →
    ∀ failure, .emit (.stopped failure) ∈ step.turn.effects →
      sumOfDrops (dropReportsIn (earlier ++ [step])) = step.fanOut.dropped sink

/-- When the run of a sink stops, there is a report of everything that its queue had given up
when the last link of the sink ended. -/
theorem stoppedSinks_report (parent : ComponentPath) (place : Nat) (config : EndpointConfig)
    (hconnection : (ofConfig parent place config).connections[index]? = some connection)
    (hpath : connection.framePath = .deliver sink) (acts : List EndpointAct)
    {earlier later : List Step} {step : Step}
    (hsteps : connection.history ((ofConfig parent place config).occasions index acts) =
      earlier ++ step :: later)
    {failure : Option String} (hstopped : .emit (.stopped failure) ∈ step.turn.effects) :
    ReportsUntilLeft sink earlier step := by
  obtain ⟨hsink, hnone⟩ := isSink_of_ofConfig hconnection hpath
  have hgrow := dropsGrow_occasions (ofConfig parent place config) index sink acts (Nat.zero_le _)
  exact hsink.reportsUntilLeft hnone hgrow hsteps hstopped

theorem stops_of_getLast? {steps : List Step} {dropped : Nat}
    (h : (steps.getLast?.map fun step => (step.turn.effects.contains (.emit (.stopped none)),
      step.fanOut.dropped sink)) = some (true, dropped)) :
    ∃ earlier step, steps = earlier ++ [step] ∧ .emit (.stopped none) ∈ step.turn.effects ∧
      step.fanOut.dropped sink = dropped := by
  obtain ⟨step, hlast, hstep⟩ := Option.map_eq_some_iff.mp h
  obtain ⟨hstopped, hdropped⟩ := Prod.mk.inj hstep
  obtain ⟨earlier, hsteps⟩ := List.getLast?_eq_some_iff.mp hlast
  exact ⟨earlier, step, hsteps, List.contains_iff_mem.mp hstopped, hdropped⟩

/-- The frame that was given up while the sink waited to try again is not in the reports. -/
theorem stoppedSinks_report_betweenLinks :
    let endpoint := ofConfig .root 0 narrowConfig
    let occasions := endpoint.occasions 1 (brokenLinkActs ++ [.connection 1 (.poll true .woken)])
    ∃ connection earlier step, endpoint.connections[1]? = some connection ∧
      connection.framePath = .deliver 0 ∧ connection.history occasions = earlier ++ [step] ∧
      .emit (.stopped none) ∈ step.turn.effects ∧ ReportsUntilLeft 0 earlier step ∧
      sumOfDrops (dropReportsIn (earlier ++ [step])) = 2 ∧ step.fanOut.dropped 0 = 3 := by
  intro endpoint occasions
  have hrun : endpoint.connections[1]?.map (fun connection => (connection.framePath,
      sumOfDrops (dropReportsIn (connection.history occasions)),
      (connection.history occasions).getLast?.map fun step =>
        (step.turn.effects.contains (.emit (.stopped none)), step.fanOut.dropped 0))) =
        some (.deliver 0, 2, some (true, 3)) := by
    decide +kernel
  obtain ⟨connection, hconnection, hsame⟩ := Option.map_eq_some_iff.mp hrun
  obtain ⟨hpath, hsame⟩ := Prod.mk.inj hsame
  obtain ⟨hsum, hlast⟩ := Prod.mk.inj hsame
  obtain ⟨earlier, step, hsteps, hstopped, hdropped⟩ := stops_of_getLast? hlast
  have hreports := stoppedSinks_report .root 0 narrowConfig hconnection hpath
    (brokenLinkActs ++ [.connection 1 (.poll true .woken)]) hsteps hstopped
  exact ⟨connection, earlier, step, hconnection, hpath, hsteps, hstopped, hreports,
    hsteps ▸ hsum, hdropped⟩

/-- Two frames arrive before the sink has a link, and it is told to stop before it gets one. -/
def unlinkedActs : List EndpointAct :=
  [.connection 0 (.run .relay false), .connection 1 (.run .relay false),
    .connection 0 (.poll false (.dialled (.ok ()))), arrival 1, arrival 2,
    .connection 1 (.poll true .woken)]

/-- A sink that never had a link has no report of the frame that its queue gave up. -/
theorem overflow_unreported :
    let endpoint := ofConfig .root 0 narrowConfig
    ∃ connection, endpoint.connections[1]? = some connection ∧
      connection.framePath = .deliver 0 ∧
      ¬ ReportsOverflow 0 (connection.history (endpoint.occasions 1 unlinkedActs)) := by
  intro endpoint
  have hrun : endpoint.connections[1]?.map (fun connection => (connection.framePath,
      sumOfDrops (dropReportsIn (connection.history (endpoint.occasions 1 unlinkedActs))),
      (connection.history (endpoint.occasions 1 unlinkedActs)).getLast?.map fun step =>
        (step.turn.effects.contains (.emit (.stopped none)), step.fanOut.dropped 0))) =
        some (.deliver 0, 0, some (true, 1)) := by
    decide +kernel
  obtain ⟨connection, hconnection, hsame⟩ := Option.map_eq_some_iff.mp hrun
  obtain ⟨hpath, hsame⟩ := Prod.mk.inj hsame
  obtain ⟨hsum, hlast⟩ := Prod.mk.inj hsame
  obtain ⟨earlier, step, hsteps, hstopped, hdropped⟩ := stops_of_getLast? hlast
  refine ⟨connection, hconnection, hpath, fun hreports => ?_⟩
  have heq := hreports earlier step [] hsteps none hstopped
  rw [← hsteps, hsum, hdropped] at heq
  cases heq

end Endpoint

end LiveRelay
