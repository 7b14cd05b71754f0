import LiveRelay.Proofs.Connection.Farewell
import LiveRelay.Proofs.Relay.Tasks

/-! # Connections that are told to stop

A connection is told to stop when it is closed, or when the token of its run is cancelled. In
whatever it waits for, it then ends with its next step, and nothing else is ever seen of it.
One that is told before its run begins does nothing but say so.
-/

namespace LiveRelay

namespace Relay

variable {relay : Relay} {move : Move} {change : Change} {id : ConnectionId}
  {connection : Connection} {run : Run} {await : Await} {token : Token} {place : Nat}

/-- The task at `place` drives the connection, which waits for something and has been told to
stop. -/
structure IsTold (relay : Relay) (id : ConnectionId) (connection : Connection) (run : Run)
    (await : Await) (place : Nat) : Prop where
  connection_eq : relay.connection? id = some connection
  life_eq : connection.life = .running run await
  told : connection.closeRequested = true ∨ relay.isCancelled run.token = true
  task_eq : relay.tasks[place]? = some ⟨.connection id, run.token, .driving⟩

/-- The connection has ended because it was told to, and the task at `place`, if it has not
done so yet, finds no failure the next time it is looked at. -/
structure HasEnded (relay : Relay) (id : ConnectionId) (connection : Connection) (token : Token)
    (place : Nat) : Prop where
  left : ∃ last, relay.connection? id = some last ∧ connection.HasLeft last
  returns : relay.tasks[place]? = some ⟨.connection id, token, .done none⟩ ∨
    relay.tasks[place]? = some ⟨.connection id, token, .driving⟩ ∧
      relay.step (.poll place) = ⟨relay.setPhase place (.done none), []⟩

theorem IsTold.interrupts (h : relay.IsTold id connection run await place) :
    relay.interrupts connection = true := by
  simp only [Relay.interrupts, h.life_eq, Bool.or_eq_true]
  exact h.told

/-- A task that drives a connection that has ended without failure is done the next time it is
looked at. -/
theorem hasEnded_of_driving {last : Connection} (hlast : relay.connection? id = some last)
    (hleft : connection.HasLeft last)
    (htask : relay.tasks[place]? = some ⟨.connection id, token, .driving⟩) :
    relay.HasEnded id connection token place := by
  refine ⟨⟨last, hlast, hleft⟩, .inr ⟨htask, ?_⟩⟩
  simp [step, poll?, htask, hlast, hleft.life_eq]

/-- Until a signal comes, a connection that has been told to stop waits as it did. -/
theorem IsTold.deed (h : relay.IsTold id connection run await place)
    (hpaths : relay.HasOwnPaths) (hdeed : Deed relay move change)
    (hmove : ∀ signal, move ≠ .signal id signal) :
    (∃ asked, change.relay.IsTold id { connection with closeRequested := asked } run await place) ∧
      effectsOf id connection.path change.occurrences = [] := by
  have htask : change.relay.tasks[place]? = some ⟨.connection id, run.token, .driving⟩ := by
    rcases hdeed.task h.task_eq with hsame | ⟨phase, hadvances, -⟩
    · exact hsame
    · cases hadvances with
      | settles hsettles =>
          cases hsettles with
          | arrives hother hended =>
              rw [h.connection_eq] at hother
              obtain rfl := Option.some.inj hother
              cases h.life_eq.symm.trans hended
  rcases hdeed.connection_cases hpaths h.connection_eq with ⟨fanOut, act, hlets, hacts⟩ | hrests
  · cases hlets with
    | signals signal => exact absurd rfl (hmove signal)
    | begins _ hlife => cases h.life_eq.symm.trans hlife
    | closes =>
        have hclose : connection.act fanOut .close =
            { connection := { connection with closeRequested := true }, fanOut } := by
          simp only [Connection.act, Connection.close, h.life_eq]
        refine ⟨⟨true, ?_, h.life_eq, .inl rfl, htask⟩, ?_⟩
        · rw [hacts.connection_eq, hclose]
        · rw [hacts.effects_eq, hclose]
  · exact ⟨⟨connection.closeRequested, hrests.connection_eq, h.life_eq,
      h.told.imp_right hdeed.isCancelled, htask⟩, hrests.effects_eq⟩

/-- Nothing more is seen of a connection that has ended. -/
theorem HasEnded.deed (h : relay.HasEnded id connection token place)
    (hpaths : relay.HasOwnPaths) (hdeed : Deed relay move change) :
    change.relay.HasEnded id connection token place ∧
      effectsOf id connection.path change.occurrences = [] := by
  obtain ⟨last, hlast, hleft⟩ := h.left
  -- What happens to it now can only ask it to close once more.
  have hnow : (∃ asked, change.relay.connection? id =
        some { last with closeRequested := asked }) ∧
      effectsOf id connection.path change.occurrences = [] := by
    rw [← hleft.path_eq]
    rcases hdeed.connection_cases hpaths hlast with ⟨fanOut, act, hlets, hacts⟩ | hrests
    · rw [hacts.connection_eq, hacts.effects_eq]
      cases hlets with
      | signals signal =>
          have hrest : last.act fanOut (.poll (relay.interrupts last) signal) =
              { connection := last, fanOut } := by
            simp only [Connection.act, Connection.resume, hleft.life_eq]
          rw [hrest]
          exact ⟨⟨last.closeRequested, rfl⟩, rfl⟩
      | begins _ hlife => cases hleft.life_eq.symm.trans hlife
      | closes =>
          have hclose : last.act fanOut .close =
              { connection := { last with closeRequested := true }, fanOut } := by
            simp only [Connection.act, Connection.close, hleft.life_eq]
          rw [hclose]
          exact ⟨⟨true, rfl⟩, rfl⟩
    · exact ⟨⟨_, hrests.connection_eq⟩, hrests.effects_eq⟩
  obtain ⟨⟨asked, hasked⟩, heffects⟩ := hnow
  refine ⟨?_, heffects⟩
  rcases h.returns with hdone | ⟨hdriving, -⟩
  · refine ⟨⟨_, hasked, hleft.asked asked⟩, .inl ?_⟩
    rcases hdeed.task hdone with hsame | ⟨phase, hadvances, -⟩
    · exact hsame
    · cases hadvances with
      | settles hsettles => cases hsettles
  · rcases hdeed.task hdriving with hsame | ⟨phase, hadvances, hnext⟩
    · exact hasEnded_of_driving hasked (hleft.asked asked) hsame
    · cases hadvances with
      | settles hsettles =>
          cases hsettles with
          | arrives hother hended =>
              rw [hlast] at hother
              obtain rfl := Option.some.inj hother
              obtain rfl := Life.ended.inj (hleft.life_eq.symm.trans hended)
              exact ⟨⟨_, hasked, hleft.asked asked⟩, .inl hnext⟩

/-- The step of a connection that has been told to stop. -/
theorem IsTold.signal (h : relay.IsTold id connection run await place) (hsound : relay.IsSound)
    (signal : Signal) :
    ∃ fanOut, (relay.endpoint? id.server id.endpoint).map Endpoint.fanOut = some fanOut ∧
      let change := relay.step (.signal id signal)
      change.occurrences =
          (connection.farewell fanOut run await).map (Effect.occurrence id connection.path) ∧
        (change.relay.endpoint? id.server id.endpoint).map Endpoint.fanOut = some fanOut ∧
        change.relay.HasEnded id connection run.token place := by
  have hstep : relay.step (.signal id signal) = relay.act id (.poll true signal) := by
    rw [← h.interrupts]
    exact signal_eq_act h.connection_eq signal
  obtain ⟨fanOut, hfanOut, hoccurrences, hconnection, hkept⟩ :=
    act_of_some h.connection_eq (.poll true signal)
  obtain ⟨heffects, hsame, hleft⟩ := Connection.resume_cancelled
    (hsound.coherent h.connection_eq) h.life_eq fanOut signal
  refine ⟨fanOut, hfanOut, ?_⟩
  rw [hstep]
  refine ⟨?_, hkept.trans (congrArg some hsame), ?_⟩
  · rw [hoccurrences, Turn.occurrences_eq]
    simp only [Connection.act, heffects, hleft.path_eq]
  · exact hasEnded_of_driving hconnection hleft (by rw [tasks_act, h.task_eq])

/-- A connection that has been told to stop ends with its next step, and nothing is seen of it
before and after. -/
structure EndsNext (relay : Relay) (id : ConnectionId) (connection : Connection) (run : Run)
    (await : Await) (place : Nat) : Prop where
  /-- The step comes to this, whatever has come in. The fan-out stays as it is. -/
  next : ∀ signal, ∃ fanOut,
    (relay.endpoint? id.server id.endpoint).map Endpoint.fanOut = some fanOut ∧
      let change := relay.step (.signal id signal)
      change.occurrences =
          (connection.farewell fanOut run await).map (Effect.occurrence id connection.path) ∧
        (change.relay.endpoint? id.server id.endpoint).map Endpoint.fanOut = some fanOut ∧
        change.relay.HasEnded id connection run.token place
  before : ∀ moves, (∀ signal, Move.signal id signal ∉ moves) →
    (∃ asked, (relay.stepAll moves).relay.connection? id =
        some { connection with closeRequested := asked }) ∧
      effectsOf id connection.path (relay.stepAll moves).occurrences = []
  after : ∀ moves signal, Move.signal id signal ∈ moves →
    (relay.stepAll moves).relay.HasEnded id connection run.token place ∧
      ∃ fanOut, effectsOf id connection.path (relay.stepAll moves).occurrences =
        connection.farewell fanOut run await

/-- Until a signal comes, the moves of a relay leave a connection that has been told to stop
waiting. -/
theorem IsTold.step (h : relay.IsTold id connection run await place) (hsound : relay.IsSound)
    (hmove : ∀ signal, move ≠ .signal id signal) :
    (∃ asked, (relay.step move).relay.IsTold id { connection with closeRequested := asked }
        run await place) ∧
      effectsOf id connection.path (relay.step move).occurrences = [] := by
  refine hsound.step_induction
    (motive := fun relay seen =>
      (∃ asked, relay.IsTold id { connection with closeRequested := asked } run await place) ∧
        effectsOf id connection.path seen = [])
    ⟨⟨connection.closeRequested, h⟩, rfl⟩ ?_
  rintro before earlier next hsound ⟨⟨asked, htold⟩, hseen⟩ hdeed
  obtain ⟨hlater, hnothing⟩ := htold.deed hsound.hasOwnPaths hdeed hmove
  refine ⟨hlater, ?_⟩
  rw [effectsOf_append, hseen, hnothing]
  rfl

theorem HasEnded.stepAll (h : relay.HasEnded id connection token place)
    (hsound : relay.IsSound) (moves : List Move) :
    (relay.stepAll moves).relay.HasEnded id connection token place ∧
      effectsOf id connection.path (relay.stepAll moves).occurrences = [] := by
  refine hsound.stepAll_induction
    (motive := fun relay seen => relay.HasEnded id connection token place ∧
      effectsOf id connection.path seen = []) ⟨h, rfl⟩ ?_
  rintro move before earlier next hsound ⟨hended, hseen⟩ hdeed
  obtain ⟨hlater, hnothing⟩ := hended.deed hsound.hasOwnPaths hdeed
  refine ⟨hlater, ?_⟩
  rw [effectsOf_append, hseen, hnothing]
  rfl

theorem IsTold.endsNext (h : relay.IsTold id connection run await place)
    (hsound : relay.IsSound) : relay.EndsNext id connection run await place where
  next := h.signal hsound
  before := by
    intro moves
    induction moves generalizing relay connection with
    | nil => exact fun _ => ⟨⟨_, h.connection_eq⟩, rfl⟩
    | cons move moves ih =>
        intro hmoves
        obtain ⟨⟨asked, hlater⟩, hnothing⟩ :=
          h.step hsound fun signal heq => hmoves signal (heq ▸ List.mem_cons_self)
        obtain ⟨hconnection, hseen⟩ := ih hlater (step_isSound hsound move)
          fun signal hmem => hmoves signal (List.mem_cons_of_mem _ hmem)
        rw [stepAll_cons]
        refine ⟨hconnection, ?_⟩
        simp only [Change.andThen, effectsOf_append, hnothing]
        exact hseen
  after := by
    intro moves signal
    induction moves generalizing relay connection with
    | nil => exact fun hmem => absurd hmem List.not_mem_nil
    | cons move moves ih =>
        intro hmem
        rw [stepAll_cons]
        simp only [Change.andThen, effectsOf_append]
        by_cases hmove : ∃ signal, move = .signal id signal
        · obtain ⟨signal, rfl⟩ := hmove
          obtain ⟨fanOut, -, hoccurrences, -, hended⟩ := h.signal hsound signal
          obtain ⟨hlast, hnothing⟩ := hended.stepAll (step_isSound hsound _) moves
          refine ⟨hlast, fanOut, ?_⟩
          rw [hoccurrences, effectsOf_map, hnothing, List.append_nil]
        · obtain ⟨⟨asked, hlater⟩, hnothing⟩ :=
            h.step hsound fun signal heq => hmove ⟨signal, heq⟩
          have htail : Move.signal id signal ∈ moves := by
            rcases List.mem_cons.mp hmem with heq | htail
            · exact absurd ⟨signal, heq.symm⟩ hmove
            · exact htail
          obtain ⟨hended, fanOut, hseen⟩ := ih hlater (step_isSound hsound move) htail
          rw [hnothing]
          obtain ⟨⟨last, hlast, hleft⟩, hreturns⟩ := hended
          exact ⟨⟨⟨last, hlast, { hleft with }⟩, hreturns⟩, fanOut, hseen⟩

/-- A connection that is run when it has been told to stop already does nothing but say so. -/
theorem begins_in_vain (hsound : relay.IsSound)
    (htask : relay.tasks[place]? = some ⟨.connection id, token, .ready⟩)
    (hconnection : relay.connection? id = some connection)
    (hlife : connection.life = .unstarted) (htoken : relay.isCancelled token = true) :
    let change := relay.step (.poll place)
    change.occurrences = Connection.vainRun.map (Effect.occurrence id connection.path) ∧
      change.relay.HasEnded id connection token place := by
  have hbegin : relay.step (.poll place) = relay.begun place id token := by
    have hpoll : relay.poll? place = some (relay.beginConnection place id token) := by
      unfold poll?
      rw [htask]
      rfl
    rw [step, hpoll, beginConnection_eq_begun hconnection hlife]
    rfl
  obtain ⟨fanOut, -, hoccurrences, hlater, -⟩ := act_of_some hconnection (.run token true)
  obtain ⟨heffects, -, hleft⟩ := Connection.start_cancelled (hsound.coherent hconnection) hlife
    fanOut token
  simp only [hbegin, begun, htoken]
  refine ⟨?_, hasEnded_of_driving hlater hleft ?_⟩
  · rw [hoccurrences, Turn.occurrences_eq]
    simp only [Connection.act, heffects, hleft.path_eq]
  · rw [getElem?_setPhase_self, tasks_act, htask]
    rfl

/-- Nothing is seen of a connection before its run begins. -/
theorem unseen_of_unstarted (config : Config) (moves : List Move)
    (hconnection : ((ofConfig config).stepAll moves).relay.connection? id = some connection)
    (hlife : connection.life = .unstarted) :
    effectsOf id connection.path ((ofConfig config).stepAll moves).occurrences = [] := by
  refine (ofConfig_isSound config).stepAll_induction
    (motive := fun relay seen =>
      ∀ connection, relay.connection? id = some connection → connection.life = .unstarted →
        effectsOf id connection.path seen = [])
    (fun _ _ _ => rfl) ?_ connection hconnection hlife
  intro move before earlier next hsound hunseen hdeed later hlater hunstarted
  obtain ⟨first, hfirst, hcases⟩ := hdeed.connection_after hsound.hasOwnPaths hlater
  rw [effectsOf_append]
  rcases hcases with ⟨fanOut, act, -, hacts, rfl⟩ | ⟨hrests, rfl⟩
  · have hpath := (first.act_passes fanOut act).path_eq
    have hpassage := (first.act_passes fanOut act).passage
    rw [hunstarted] at hpassage
    generalize hfirstLife : first.life = life at hpassage
    generalize (first.act fanOut act).marks = marks at hpassage
    cases hpassage with
    | rests hpoll _ =>
        obtain ⟨cancelled, signal, rfl⟩ := hpoll rfl
        rw [hpath, hunseen first hfirst hfirstLife, hacts.effects_eq]
        simp only [Connection.act, Connection.resume, hfirstLife, List.append_nil]
  · rw [hunseen first hfirst hunstarted, hrests.effects_eq]
    rfl

/-- However a relay has come this far, a connection in it that waits for something ends with its
next step once it has been told to stop. Of one that was told before its run began, nothing but
the run in vain is ever seen. -/
theorem told_ends (config : Config) (earlier : List Move) :
    let relay := ((ofConfig config).stepAll earlier).relay
    (∀ id connection run await, relay.connection? id = some connection →
      connection.life = .running run await →
      (connection.closeRequested = true ∨ relay.isCancelled run.token = true) →
        ∃ place : Nat, relay.tasks[place]? = some ⟨.connection id, run.token, .driving⟩ ∧
          relay.EndsNext id connection run await place) ∧
    ∀ id connection token (place : Nat), relay.connection? id = some connection →
      connection.life = .unstarted →
      relay.tasks[place]? = some ⟨.connection id, token, .ready⟩ →
      relay.isCancelled token = true →
        let change := relay.step (.poll place)
        change.occurrences = Connection.vainRun.map (Effect.occurrence id connection.path) ∧
          change.relay.HasEnded id connection token place ∧
          ∀ later, effectsOf id connection.path
              ((ofConfig config).stepAll (earlier ++ .poll place :: later)).occurrences =
            Connection.vainRun := by
  intro relay
  have hsound : relay.IsSound := stepAll_isSound (ofConfig_isSound config) earlier
  have hdriven : relay.IsDriven := stepAll_isDriven config earlier
  constructor
  · intro id connection run await hconnection hlife htold
    obtain ⟨place, htask⟩ := hdriven id connection run await hconnection hlife
    have htold : relay.IsTold id connection run await place :=
      ⟨hconnection, hlife, htold, htask⟩
    exact ⟨place, htask, htold.endsNext hsound⟩
  · intro id connection token place hconnection hlife htask htoken
    obtain ⟨hoccurrences, hended⟩ := begins_in_vain hsound htask hconnection hlife htoken
    refine ⟨hoccurrences, hended, fun later => ?_⟩
    have hbefore := unseen_of_unstarted config earlier hconnection hlife
    have hafter := (hended.stepAll (step_isSound hsound _) later).2
    rw [stepAll_append, Change.andThen, stepAll_cons, Change.andThen]
    simp only [effectsOf_append]
    rw [hbefore, hoccurrences, effectsOf_map, hafter]
    rfl

/-- A host that takes a stream from its peer, and a client that it is to be sent to. -/
def pairConfig : Config where
  servers := [{ endpoints := [{
    role := .client
    direction := .output
    addresses := [.detailed "host:1" (some .host) (some .input), .plain "client:1"] }] }]

/-- The host gets a link, and reads from it when the token of both is cancelled. The client has
not begun. -/
def cancelledMoves : List Move :=
  [.run (.connection ⟨0, 0, 0⟩) (.caller 0), .poll 0,
    .signal ⟨0, 0, 0⟩ (.bound (.ok none)), .signal ⟨0, 0, 0⟩ (.accepted (.ok ())),
    .run (.connection ⟨0, 0, 1⟩) (.caller 0), .cancel (.caller 0)]

/-- A host that has bytes to read ends all the same, and a client that begins then calls
nobody. -/
theorem told_ends_pair :
    let relay := ((ofConfig pairConfig).stepAll cancelledMoves).relay
    let host := ComponentPath.mk "relay/server[0]/endpoint[0]/connection[0:host:1]"
    let client := ComponentPath.mk "relay/server[0]/endpoint[0]/connection[1:client:1]"
    (relay.step (.signal ⟨0, 0, 0⟩ (.received (.ok [1, 2].toByteArray)))).occurrences =
        [.request ⟨0, 0, 0⟩ .hangUp, .event ⟨host, .transition .active .draining 0 none⟩,
          .request ⟨0, 0, 0⟩ .unbind, .event ⟨host, .transition .draining .closed 0 none⟩,
          .event ⟨host, .stopped none⟩] ∧
      (relay.step (.poll 1)).occurrences =
        [.event ⟨client, .started⟩, .event ⟨client, .transition .idle .establishing 0 none⟩,
          .event ⟨client, .transition .establishing .draining 0 none⟩,
          .event ⟨client, .transition .draining .closed 0 none⟩,
          .event ⟨client, .stopped none⟩] := by
  intro relay host client
  obtain ⟨hrunning, hbeginning⟩ := told_ends pairConfig cancelledMoves
  have hcancelled : relay.isCancelled (.caller 0) = true := by decide +kernel
  constructor
  · have hhost : (relay.connection? ⟨0, 0, 0⟩).map (fun connection =>
        (connection.path, connection.framePath, connection.life)) =
          some (host, .publish,
            .running ⟨.caller 0, ⟨.unlimited, 0⟩, true⟩ (.reading (.fresh .raw) .empty)) := by
      decide +kernel
    obtain ⟨connection, hconnection, heq⟩ := Option.map_eq_some_iff.mp hhost
    obtain ⟨hpath, hframePath, hlife⟩ : connection.path = host ∧
        connection.framePath = .publish ∧ connection.life = _ := by simpa using heq
    obtain ⟨_, -, hends⟩ := hrunning _ _ _ _ hconnection hlife (.inr hcancelled)
    obtain ⟨fanOut, -, hoccurrences, -⟩ := hends.next (.received (.ok [1, 2].toByteArray))
    rw [hoccurrences, Connection.farewell, Connection.dropReport, hframePath, hpath]
    rfl
  · have hclient : (relay.connection? ⟨0, 0, 1⟩).map (fun connection =>
        (connection.path, connection.life)) = some (client, .unstarted) := by
      decide +kernel
    obtain ⟨connection, hconnection, heq⟩ := Option.map_eq_some_iff.mp hclient
    obtain ⟨hpath, hlife⟩ : connection.path = client ∧ connection.life = .unstarted := by
      simpa using heq
    have hready : relay.tasks[1]? = some ⟨.connection ⟨0, 0, 1⟩, .caller 0, .ready⟩ := by
      decide +kernel
    rw [(hbeginning _ _ _ _ hconnection hlife hready hcancelled).1, hpath]
    rfl

end Relay

end LiveRelay
