import LiveRelay.Proofs.Relay.Causes
import LiveRelay.Proofs.Relay.Staff

/-! # How failures add up

An endpoint fails with the number of its connections that have failed, a server with the number
of its endpoints that have, and the relay reports how many of its servers have. Nothing that is
done in between changes these numbers: each failure is counted by one group, once
(`failures_add_up`).
-/

namespace LiveRelay

/-- Whether the run of the connection has failed. -/
def Connection.hasFailed (connection : Connection) : Bool :=
  match connection.life with
  | .ended (some _) => true
  | _ => false

/-- How many connections of the endpoint have failed. -/
def Endpoint.failedConnections (endpoint : Endpoint) : Nat :=
  endpoint.connections.countP Connection.hasFailed

/-- How many endpoints of the server have a connection that has failed. -/
def Server.failedEndpoints (server : Server) : Nat :=
  server.endpoints.countP fun endpoint => decide (0 < endpoint.failedConnections)

namespace Relay

variable {relay : Relay} {place : Nat} {move : Move} {change : Change} {seen : List Occurrence}

/-- How many servers of the relay have a connection that has failed. -/
def failedServers (relay : Relay) : Nat :=
  relay.servers.countP fun server => decide (0 < server.failedEndpoints)

/-! ## The failures of connections -/

/-- The failures of connections are those that are returned by their tasks. -/
structure IsReturned (relay : Relay) : Prop where
  own : ∀ {place : Nat} {id token failure},
    relay.tasks[place]? = some ⟨.connection id, token, .done (some failure)⟩ →
    ∃ connection cause, relay.connection? id = some connection ∧
      connection.life = .ended (some cause) ∧ failure = .connection cause
  task : ∀ {id connection cause}, relay.connection? id = some connection →
    connection.life = .ended (some cause) → ∃ (place : Nat) (token : Token),
      relay.tasks[place]? = some ⟨.connection id, token, .driving⟩ ∨
      relay.tasks[place]? = some ⟨.connection id, token, .done (some (.connection cause))⟩

theorem Deed.isReturned (h : Deed relay move change) (hpaths : relay.HasOwnPaths)
    (hdriven : relay.IsDriven) (hreturned : relay.IsReturned) : change.relay.IsReturned where
  own := by
    intro place id token failure hlater
    suffices hbefore : ∃ connection cause, relay.connection? id = some connection ∧
        connection.life = .ended (some cause) ∧ failure = .connection cause by
      obtain ⟨connection, cause, hconnection, hlife, hfailure⟩ := hbefore
      obtain ⟨last, hlast, hended⟩ := h.ended hpaths hconnection hlife
      exact ⟨last, cause, hlast, hended, hfailure⟩
    rcases h.task_before hlater nofun with hsame | ⟨task, htask, hadvances, hwas⟩
    · exact hreturned.own hsame
    · obtain ⟨component, token', phase⟩ := task
      obtain ⟨rfl, rfl, -⟩ := Task.mk.inj hwas
      generalize hphase : TaskPhase.done (some failure) = last at hadvances
      cases hadvances with
      | begins => cases hphase
      | settles hsettles =>
          cases hsettles with
          | skips => cases hphase
          | @arrives _ _ connection ended hconnection hlife =>
              cases ended with
              | none => cases hphase
              | some cause =>
                  cases hphase
                  exact ⟨connection, cause, hconnection, hlife, rfl⟩
  task := by
    intro id later cause hlater hended
    -- The task that drives the connection goes on only to return how it has ended.
    have hdrives : ∀ {place : Nat} {token : Token} {connection : Connection},
        relay.tasks[place]? = some ⟨.connection id, token, .driving⟩ →
        relay.connection? id = some connection →
        (∀ failure, connection.life = .ended failure → failure = some cause) →
        ∃ (place : Nat) (token : Token),
          change.relay.tasks[place]? = some ⟨.connection id, token, .driving⟩ ∨
          change.relay.tasks[place]? =
            some ⟨.connection id, token, .done (some (.connection cause))⟩ := by
      intro place token connection htask hconnection hfailure
      refine ⟨place, token, ?_⟩
      rcases h.task htask with hsame | ⟨phase, hadvances, hnext⟩
      · exact .inl hsame
      · cases hadvances with
        | settles hsettles =>
            cases hsettles with
            | arrives hother hlife =>
                obtain rfl := Option.some.inj (hconnection.symm.trans hother)
                obtain rfl := hfailure _ hlife
                exact .inr hnext
    obtain ⟨connection, hconnection, hcases⟩ := h.connection_after hpaths hlater
    -- Where it had ended before, it has been returned or will be.
    have hbefore : connection.life = .ended (some cause) → ∃ (place : Nat) (token : Token),
        change.relay.tasks[place]? = some ⟨.connection id, token, .driving⟩ ∨
        change.relay.tasks[place]? =
          some ⟨.connection id, token, .done (some (.connection cause))⟩ := by
      intro hlife
      obtain ⟨place, token, hdriving | hdone⟩ := hreturned.task hconnection hlife
      · apply hdrives hdriving hconnection
        intro failure hfailure
        exact (Life.ended.inj (hlife.symm.trans hfailure)).symm
      · refine ⟨place, token, .inr ?_⟩
        rcases h.task hdone with hsame | ⟨phase, hadvances, -⟩
        · exact hsame
        · cases hadvances.not_done
    rcases hcases with ⟨fanOut, act, -, -, rfl⟩ | ⟨-, rfl⟩
    · have hpassage := (connection.act_passes fanOut act).passage
      rw [hended] at hpassage
      generalize hlife : connection.life = life at hpassage
      generalize (connection.act fanOut act).marks = marks at hpassage
      cases hpassage with
      | rests => exact hbefore hlife
      | @ends run await =>
          obtain ⟨place, hdriving⟩ := hdriven id connection run await hconnection hlife
          apply hdrives hdriving hconnection
          intro failure hfailure
          cases hlife.symm.trans hfailure
    · exact hbefore hended

theorem stepAll_isReturned (config : Config) (moves : List Move) :
    ((ofConfig config).stepAll moves).relay.IsReturned := by
  have hbegin : (ofConfig config).IsDriven ∧ (ofConfig config).IsReturned := by
    refine ⟨stepAll_isDriven config [], nofun, ?_⟩
    intro id connection cause hconnection hended
    cases (life_ofConfig hconnection).symm.trans hended
  have hall : ((ofConfig config).stepAll moves).relay.IsDriven ∧
      ((ofConfig config).stepAll moves).relay.IsReturned :=
    (ofConfig_isSound config).stepAll_induction
      (motive := fun relay _ => relay.IsDriven ∧ relay.IsReturned) hbegin
      fun hsound ⟨hdriven, hreturned⟩ hdeed =>
        ⟨hdeed.isDriven hsound.hasOwnPaths hdriven,
          hdeed.isReturned hsound.hasOwnPaths hdriven hreturned⟩
  exact hall.2

/-! ## What the staff of a run adds up to -/

section Failures

variable (relay : Relay) (staff : Nat → List Nat)

/-- How many of the connections that the task of an endpoint has started have failed. -/
def connectionFailures (endpoint : Nat) : Nat := (staff endpoint).countP relay.hasFailed

/-- How many of the endpoints that the task of a server has started have such a connection. -/
def endpointFailures (server : Nat) : Nat :=
  (staff server).countP fun endpoint => decide (0 < relay.connectionFailures staff endpoint)

/-- How many of the servers that the task of the relay has started have such an endpoint. -/
def serverFailures (main : Nat) : Nat :=
  (staff main).countP fun server => decide (0 < relay.endpointFailures staff server)

/-- How many parts of the group have failed in the run by the task at `place`. -/
def partFailures : Group → (place : Nat) → Nat
  | .relay => relay.serverFailures staff
  | .server _ => relay.endpointFailures staff
  | .endpoint _ _ => relay.connectionFailures staff

end Failures

namespace GroupCourse

variable {group : Group} {staff : List Nat} {failure : Option TaskFailure}

/-- A run of a server or of an endpoint fails if one of its staff has. -/
theorem hasFailed_eq (h : relay.GroupCourse seen group staff (.done failure))
    (hgroup : group ≠ .relay) :
    (TaskPhase.done failure).hasFailed = decide (0 < staff.countP relay.hasFailed) := by
  generalize hphase : TaskPhase.done failure = phase at h ⊢
  cases h with
  | ready => cases hphase
  | joining => cases hphase
  | declined hstaff hfailure =>
      subst hstaff
      rcases hfailure with ⟨-, rfl⟩ | ⟨hrelay, -⟩
      · rfl
      · exact absurd hrelay hgroup
  | ended =>
      cases hcount : staff.countP relay.hasFailed with
      | zero => rfl
      | succ count =>
          cases group with
          | relay => exact absurd rfl hgroup
          | server => rfl
          | endpoint => rfl

/-- The staff of a run that is done are tasks of parts of the group, and are done. -/
theorem staff_task (h : relay.GroupCourse seen group staff (.done failure)) {child : Nat}
    (hchild : child ∈ staff) : ∃ component token failure,
      relay.tasks[child]? = some ⟨component, token, .done failure⟩ ∧
        component ∈ relay.childrenOf group := by
  have hdone := (h.staff_done rfl).2 child hchild
  generalize hphase : TaskPhase.done failure = phase at h
  cases h with
  | ready => cases hphase
  | joining => cases hphase
  | declined hstaff => rw [hstaff] at hchild; cases hchild
  | ended _ hstaff =>
      obtain ⟨⟨component, token, phase⟩, htask, hcomponent⟩ := hstaff.task hchild
      rw [phaseOf_eq htask] at hdone
      cases phase with
      | done failure => exact ⟨component, token, failure, htask, hcomponent⟩
      | _ => cases hdone

end GroupCourse

namespace IsManned

variable {staff : Nat → List Nat} {token : Token} {failure : Option TaskFailure}

/-- A server or an endpoint that is done has failed if one of its parts has. -/
theorem hasFailed_eq (h : relay.IsManned staff seen) {group : Group}
    (htask : relay.tasks[place]? = some ⟨.group group, token, .done failure⟩)
    (hgroup : group ≠ .relay) :
    relay.hasFailed place = decide (0 < (staff place).countP relay.hasFailed) := by
  rw [hasFailed, phaseOf_eq htask]
  exact (h.course htask).hasFailed_eq hgroup

theorem countP_server (h : relay.IsManned staff seen) {server : Nat}
    (htask : relay.tasks[place]? = some ⟨.group (.server server), token, .done failure⟩) :
    (staff place).countP relay.hasFailed = relay.endpointFailures staff place := by
  apply List.countP_congr
  intro child hchild
  obtain ⟨component, watched, returned, hbelow, hpart⟩ := (h.course htask).staff_task hchild
  rw [childrenOf_eq] at hpart
  obtain ⟨index, -, rfl⟩ := List.mem_map.mp hpart
  rw [h.hasFailed_eq hbelow nofun]
  rfl

theorem countP_relay (h : relay.IsManned staff seen)
    (htask : relay.tasks[place]? = some ⟨.group .relay, token, .done failure⟩) :
    (staff place).countP relay.hasFailed = relay.serverFailures staff place := by
  apply List.countP_congr
  intro child hchild
  obtain ⟨component, watched, returned, hbelow, hpart⟩ := (h.course htask).staff_task hchild
  rw [childrenOf_eq] at hpart
  obtain ⟨index, -, rfl⟩ := List.mem_map.mp hpart
  rw [h.hasFailed_eq hbelow nofun, h.countP_server hbelow]

/-- Of what a run has started as many have failed as parts of its group. -/
theorem countP_eq (h : relay.IsManned staff seen) {group : Group}
    (htask : relay.tasks[place]? = some ⟨.group group, token, .done failure⟩) :
    (staff place).countP relay.hasFailed = relay.partFailures staff group place := by
  cases group with
  | relay => exact h.countP_relay htask
  | server => exact h.countP_server htask
  | endpoint => rfl

end IsManned

/-! ## Relays that are run as a whole -/

/-- How many parts of the group have a connection that has failed, or have failed themselves. -/
def failedParts (relay : Relay) : Group → Nat
  | .relay => relay.failedServers
  | .server server => ((relay.server? server).map Server.failedEndpoints).getD 0
  | .endpoint server endpoint =>
      ((relay.endpoint? server endpoint).map Endpoint.failedConnections).getD 0

theorem getElem?_childrenOf {group : Group} {index : Nat} {component : Component}
    (h : (relay.childrenOf group)[index]? = some component) : component = group.part index := by
  rw [childrenOf_eq, List.getElem?_map] at h
  obtain ⟨number, hnumber, rfl⟩ := Option.map_eq_some_iff.mp h
  obtain ⟨-, rfl⟩ := List.getElem?_eq_some_iff.mp hnumber
  rw [List.getElem_range]

/-- To count tasks is to count the parts that they run. -/
theorem Serve.countP_eq {α : Type} {tasks : List Nat} {components : List Component}
    {parts : List α} {p : Nat → Bool} {q : α → Bool} (h : relay.Serve tasks components)
    (hlength : parts.length = components.length)
    (hsame : ∀ {index child : Nat} {found : Task} {part : α}, child ∈ tasks →
      relay.tasks[child]? = some found → components[index]? = some found.component →
      parts[index]? = some part → p child = q part) :
    tasks.countP p = parts.countP q := by
  have hmap : tasks.map p = parts.map q := by
    apply List.ext_getElem?
    intro index
    rw [List.getElem?_map, List.getElem?_map]
    cases hchild : tasks[index]? with
    | none =>
        have hbeyond := List.getElem?_eq_none_iff.mp hchild
        rw [h.length_eq, ← hlength] at hbeyond
        rw [List.getElem?_eq_none hbeyond]
        rfl
    | some child =>
        obtain ⟨found, hfound, hcomponent⟩ := h.getElem? hchild
        have hlt := (List.getElem?_eq_some_iff.mp hcomponent).1
        rw [← hlength] at hlt
        have hpart := List.getElem?_eq_getElem hlt
        rw [hpart, Option.map_some, Option.map_some,
          hsame (List.mem_of_getElem? hchild) hfound hcomponent hpart]
  calc tasks.countP p
      _ = (tasks.map p).countP id := by rw [List.countP_map]; rfl
      _ = (parts.map q).countP id := by rw [hmap]
      _ = parts.countP q := by rw [List.countP_map]; rfl

namespace GroupCourse

variable {group : Group} {staff : List Nat} {failure : Option TaskFailure}

theorem groupFailure?_ne (path : ComponentPath) (failures : Nat) :
    (groupFailure? group path failures).map TaskFailure.relay ≠
      some (.relay .alreadyRunning) := by
  unfold groupFailure?
  split_ifs
  · nofun
  · cases group <;> nofun

/-- A run that has been refused has started nothing. -/
theorem staff_eq_nil
    (h : relay.GroupCourse seen group staff (.done (some (.relay .alreadyRunning)))) :
    staff = [] := by
  generalize hphase : TaskPhase.done (some (.relay .alreadyRunning)) = phase at h
  cases h with
  | ready hstaff => exact hstaff
  | declined hstaff => exact hstaff
  | joining => cases hphase
  | ended => exact absurd (TaskPhase.done.inj hphase).symm (groupFailure?_ne _ _)

theorem ne_alreadyRunning (h : relay.GroupCourse seen group staff (.done failure))
    (hgroup : group ≠ .relay) : failure ≠ some (.relay .alreadyRunning) := by
  rintro rfl
  generalize hphase : TaskPhase.done (some (.relay .alreadyRunning)) = phase at h
  cases h with
  | ready => cases hphase
  | joining => cases hphase
  | declined _ hfailure =>
      cases hphase
      rcases hfailure with ⟨-, hnone⟩ | ⟨hrelay, -⟩
      · cases hnone
      · exact hgroup hrelay
  | ended => exact absurd (TaskPhase.done.inj hphase).symm (groupFailure?_ne _ _)

/-- A group that is not there has started nothing. -/
theorem staff_of_absent {phase : TaskPhase} (h : relay.GroupCourse seen group staff phase)
    (hpath : relay.pathOf? group = none) : staff = [] := by
  cases h with
  | ready hstaff => exact hstaff
  | declined hstaff => exact hstaff
  | joining hsome => cases hpath.symm.trans hsome
  | ended hsome => cases hpath.symm.trans hsome

/-- A run that has been done has had one task for each part. -/
theorem countP_eq (h : relay.GroupCourse seen group staff (.done failure))
    {path : ComponentPath} (hpath : relay.pathOf? group = some path)
    (hran : failure ≠ some (.relay .alreadyRunning)) {α : Type} {parts : List α}
    (hlength : parts.length = relay.sizeOf group) {p : Nat → Bool} {q : α → Bool}
    (hsame : ∀ {index child : Nat} {component : Component} {token : Token}
      {failure : Option TaskFailure} {part : α},
      relay.tasks[child]? = some ⟨component, token, .done failure⟩ →
      (relay.childrenOf group)[index]? = some component → parts[index]? = some part →
      p child = q part) : staff.countP p = parts.countP q := by
  have hstaff : ∀ child ∈ staff, ∃ component token failure,
      relay.tasks[child]? = some ⟨component, token, .done failure⟩ ∧
        component ∈ relay.childrenOf group := fun _ hchild => h.staff_task hchild
  generalize hphase : TaskPhase.done failure = phase at h
  cases h with
  | ready => cases hphase
  | joining => cases hphase
  | declined _ hfailure =>
      cases hphase
      rcases hfailure with ⟨hnone, -⟩ | ⟨-, hrefused⟩
      · cases hpath.symm.trans hnone
      · exact absurd hrefused hran
  | ended _ hserve =>
      apply hserve.countP_eq
      · rw [hlength, childrenOf, List.length_map, List.length_range]
      · intro index child found part hchild hfound hcomponent hpart
        obtain ⟨component, token, returned, htask, -⟩ := hstaff child hchild
        obtain rfl := Option.some.inj (hfound.symm.trans htask)
        exact hsame htask hcomponent hpart

end GroupCourse

/-- A connection that is run by one task alone has failed if this task has. -/
theorem InOrder.hasFailed_eq (h : relay.InOrder) (hreturned : relay.IsReturned)
    {id : ConnectionId} {token : Token} {failure : Option TaskFailure} {connection : Connection}
    (htask : relay.tasks[place]? = some ⟨.connection id, token, .done failure⟩)
    (hconnection : relay.connection? id = some connection) :
    relay.hasFailed place = connection.hasFailed := by
  rw [hasFailed, phaseOf_eq htask]
  -- A task of a connection is the only one that the connection has.
  have hown : ∀ watched phase, (⟨.connection id, watched, phase⟩ : Task).IsOwn := by
    intro watched phase hrelay
    cases hrelay
  cases failure with
  | some failure =>
      obtain ⟨found, cause, hfound, hlife, -⟩ := hreturned.own htask
      obtain rfl := Option.some.inj (hconnection.symm.trans hfound)
      rw [Connection.hasFailed, hlife]
      rfl
  | none =>
      unfold Connection.hasFailed
      split
      next cause hlife =>
        obtain ⟨other, watched, hother⟩ := hreturned.task hconnection hlife
        rcases hother with hdriving | hfailed
        · obtain rfl := h.unique htask hdriving (hown _ _) (hown _ _) rfl
          cases htask.symm.trans hdriving
        · obtain rfl := h.unique htask hfailed (hown _ _) (hown _ _) rfl
          cases htask.symm.trans hfailed
      next => rfl

namespace IsManned

variable {staff : Nat → List Nat} {token : Token} {failure : Option TaskFailure}

theorem endpoint_count (h : relay.IsManned staff seen) (horder : relay.InOrder)
    (hreturned : relay.IsReturned) {server endpoint : Nat}
    (htask : relay.tasks[place]? =
      some ⟨.group (.endpoint server endpoint), token, .done failure⟩) :
    relay.connectionFailures staff place = relay.failedParts (.endpoint server endpoint) := by
  have hcourse := h.course htask
  cases hvalue : relay.endpoint? server endpoint with
  | none =>
      have hpath : relay.pathOf? (.endpoint server endpoint) = none :=
        congrArg (Option.map Endpoint.path) hvalue
      rw [failedParts, hvalue, connectionFailures, hcourse.staff_of_absent hpath]
      rfl
  | some value =>
      have hpath : relay.pathOf? (.endpoint server endpoint) = some value.path :=
        congrArg (Option.map Endpoint.path) hvalue
      rw [failedParts, hvalue]
      apply hcourse.countP_eq hpath (hcourse.ne_alreadyRunning nofun)
      case hlength => simp [sizeOf, hvalue]
      case hsame =>
        intro index child component watched returned connection hbelow hcomponent hpart
        obtain rfl := getElem?_childrenOf hcomponent
        apply horder.hasFailed_eq hreturned hbelow
        rw [connection?, hvalue]
        exact hpart

theorem server_count (h : relay.IsManned staff seen) (horder : relay.InOrder)
    (hreturned : relay.IsReturned) {server : Nat}
    (htask : relay.tasks[place]? = some ⟨.group (.server server), token, .done failure⟩) :
    relay.endpointFailures staff place = relay.failedParts (.server server) := by
  have hcourse := h.course htask
  cases hvalue : relay.server? server with
  | none =>
      have hpath : relay.pathOf? (.server server) = none :=
        congrArg (Option.map Server.path) hvalue
      rw [failedParts, hvalue, endpointFailures, hcourse.staff_of_absent hpath]
      rfl
  | some value =>
      have hpath : relay.pathOf? (.server server) = some value.path :=
        congrArg (Option.map Server.path) hvalue
      rw [failedParts, hvalue]
      apply hcourse.countP_eq hpath (hcourse.ne_alreadyRunning nofun)
      case hlength => simp [sizeOf, hvalue]
      case hsame =>
        intro index child component watched returned endpoint hbelow hcomponent hpart
        obtain rfl := getElem?_childrenOf hcomponent
        have hendpoint : relay.endpoint? server index = some endpoint := by
          rw [endpoint?, hvalue]
          exact hpart
        rw [h.endpoint_count horder hreturned hbelow, failedParts, hendpoint]
        rfl

theorem relay_count (h : relay.IsManned staff seen) (horder : relay.InOrder)
    (hreturned : relay.IsReturned)
    (htask : relay.tasks[place]? = some ⟨.group .relay, token, .done none⟩) :
    relay.serverFailures staff place = relay.failedServers := by
  have hpath : relay.pathOf? .relay = some path := rfl
  apply (h.course htask).countP_eq hpath nofun
  case hlength => rfl
  case hsame =>
    intro index child component watched returned server hbelow hcomponent hpart
    obtain rfl := getElem?_childrenOf hcomponent
    have hserver : relay.server? index = some server := hpart
    rw [h.server_count horder hreturned hbelow, failedParts, hserver]
    rfl

/-- If the relay is only run as a whole, then what a run adds up are the connections that have
failed. -/
theorem parts_count (h : relay.IsManned staff seen) (horder : relay.InOrder)
    (hreturned : relay.IsReturned) {group : Group}
    (htask : relay.tasks[place]? = some ⟨.group group, token, .done failure⟩)
    (hran : failure ≠ some (.relay .alreadyRunning)) :
    relay.partFailures staff group place = relay.failedParts group := by
  cases group with
  | server => exact h.server_count horder hreturned htask
  | endpoint => exact h.endpoint_count horder hreturned htask
  | relay =>
      cases failure with
      | none => exact h.relay_count horder hreturned htask
      | some failure =>
          obtain rfl : failure = .relay .alreadyRunning := horder.fits htask
          exact absurd rfl hran

end IsManned

/-! ## The whole account -/

/-- What a task says at the end of its run of a group: the relay how many of its servers have
failed, any other how it has failed itself. -/
def lastWords (relay : Relay) (staff : Nat → List Nat) (place : Nat) :
    Group → Option TaskFailure → Option String
  | .relay, _ =>
      let failures := relay.serverFailures staff place
      if failures = 0 then none else some s!"{failures} server(s) failed"
  | _, failure => failure.map TaskFailure.message

/-- How failures add up in a relay that has come here by `moves`, when this is who has started
which tasks and what has been seen. -/
structure FailuresAddUp (moves : List Move) (staff : Nat → List Nat) (relay : Relay)
    (seen : List Occurrence) : Prop where
  /-- A run of a group has one task for each of its parts. -/
  parts : ∀ (place : Nat) group token phase path,
    relay.tasks[place]? = some ⟨.group group, token, phase⟩ → relay.pathOf? group = some path →
    phase ≠ .ready → phase ≠ .done (some (.relay .alreadyRunning)) →
    relay.Serve (staff place) (relay.childrenOf group)
  /-- No task is counted in two runs. -/
  once : ∀ first second child, child ∈ staff first → child ∈ staff second → first = second
  connection : ∀ (place : Nat) id token failure,
    relay.tasks[place]? = some ⟨.connection id, token, .done (some failure)⟩ →
    ∃ connection cause, relay.connection? id = some connection ∧
      connection.life = .ended (some cause) ∧ failure = .connection cause
  endpoint : ∀ (place : Nat) server endpoint token failure path,
    relay.tasks[place]? = some ⟨.group (.endpoint server endpoint), token, .done failure⟩ →
    relay.pathOf? (.endpoint server endpoint) = some path →
    let failures := relay.connectionFailures staff place
    failure = if failures = 0 then none else some (.relay (.endpointFailed path.text failures))
  server : ∀ (place : Nat) server token failure path,
    relay.tasks[place]? = some ⟨.group (.server server), token, .done failure⟩ →
    relay.pathOf? (.server server) = some path →
    let failures := relay.endpointFailures staff place
    failure = if failures = 0 then none else some (.relay (.serverFailed path.text failures))
  /-- The relay does not fail, but for a run that comes too late. -/
  main : ∀ (place : Nat) token failure,
    relay.tasks[place]? = some ⟨.group .relay, token, .done failure⟩ →
    failure = none ∨ failure = some (.relay .alreadyRunning) ∧ staff place = []
  reports : ∀ (place : Nat) group token failure path,
    relay.tasks[place]? = some ⟨.group group, token, .done failure⟩ →
    relay.pathOf? group = some path → failure ≠ some (.relay .alreadyRunning) →
    .event ⟨path, .stopped (relay.lastWords staff place group failure)⟩ ∈ seen
  /-- Nobody else reports that a group has stopped. -/
  reported : ∀ group path text, relay.pathOf? group = some path →
    .event ⟨path, .stopped text⟩ ∈ seen → ∃ (place : Nat) (token : Token) (failure : _),
      relay.tasks[place]? = some ⟨.group group, token, .done failure⟩ ∧
      text = relay.lastWords staff place group failure
  /-- A run comes to its end when all that it has started has. -/
  returns : ∀ (place : Nat) group token children failures,
    relay.tasks[place]? = some ⟨.group group, token, .joining children failures⟩ →
    (∀ child ∈ staff place, (relay.phaseOf child).isDone = true) →
    ∃ failure, (relay.stepAll
      (List.replicate (children.length + 1) (.poll place))).relay.tasks[place]? =
        some ⟨.group group, token, .done failure⟩
  /-- If only the relay is run from outside, then all that have failed are counted. -/
  whole : (∀ move ∈ moves, move.RunsRelayOnly) → ∀ (place : Nat) group token failure,
    relay.tasks[place]? = some ⟨.group group, token, .done failure⟩ →
    failure ≠ some (.relay .alreadyRunning) →
    relay.partFailures staff group place = relay.failedParts group

theorem groupFailure?_relay (path : ComponentPath) (failures : Nat) :
    groupFailure? .relay path failures = none := by
  unfold groupFailure?
  split_ifs <;> rfl

/-- What a run of a group says in the end is the text of its failure. -/
theorem stopText?_eq_lastWords (relay : Relay) (staff : Nat → List Nat) (place : Nat)
    (group : Group) (path : ComponentPath) :
    stopText? group path (relay.partFailures staff group place) =
      relay.lastWords staff place group
        ((groupFailure? group path (relay.partFailures staff group place)).map .relay) := by
  cases group with
  | relay => rfl
  | _ =>
      rw [lastWords, Option.map_map]
      · rfl
      · nofun

/-- A run that is done has returned and reported the failures of its parts. -/
theorem IsManned.returned {staff : Nat → List Nat} {token : Token} {failure : Option TaskFailure}
    {group : Group} {path : ComponentPath} (h : relay.IsManned staff seen)
    (htask : relay.tasks[place]? = some ⟨.group group, token, .done failure⟩)
    (hpath : relay.pathOf? group = some path)
    (hran : failure ≠ some (.relay .alreadyRunning)) :
    relay.Serve (staff place) (relay.childrenOf group) ∧
      failure = (groupFailure? group path (relay.partFailures staff group place)).map .relay ∧
      .event ⟨path, .stopped (relay.lastWords staff place group failure)⟩ ∈ seen := by
  have hcount := h.countP_eq htask
  have hcourse := h.course htask
  generalize hphase : TaskPhase.done failure = phase at hcourse
  cases hcourse with
  | ready => cases hphase
  | joining => cases hphase
  | declined _ hfailure =>
      cases hphase
      rcases hfailure with ⟨hnone, -⟩ | ⟨-, hrefused⟩
      · cases hpath.symm.trans hnone
      · exact absurd hrefused hran
  | ended hpath' hserve _ hseen =>
      obtain rfl := Option.some.inj (hpath.symm.trans hpath')
      obtain rfl := TaskPhase.done.inj hphase
      rw [hcount] at hseen ⊢
      rw [← stopText?_eq_lastWords]
      exact ⟨hserve, rfl, hseen⟩

/-- Whatever happens to a relay, and in whichever order its tasks are done, the failures of its
connections add up. -/
theorem failures_add_up (config : Config) (moves : List Move) :
    let change := (ofConfig config).stepAll moves
    FailuresAddUp moves (fun place => (ofConfig config).startedBy place moves) change.relay
      change.occurrences := by
  intro change
  have hmanned := stepAll_isManned config moves
  have hreturned := stepAll_isReturned config moves
  constructor
  case parts =>
    intro place group token phase path htask hpath hbegun hran
    cases hmanned.course htask with
    | ready => exact absurd rfl hbegun
    | joining _ hserve => exact hserve
    | ended _ hserve => exact hserve
    | declined _ hfailure =>
        rcases hfailure with ⟨hnone, -⟩ | ⟨-, rfl⟩
        · cases hpath.symm.trans hnone
        · exact absurd rfl hran
  case once => exact hmanned.once
  case connection => exact fun _ _ _ _ htask => hreturned.own htask
  case endpoint =>
    intro place server endpoint token failure path htask hpath failures
    have hran := (hmanned.course htask).ne_alreadyRunning nofun
    rw [(hmanned.returned htask hpath hran).2.1, groupFailure?]
    exact apply_ite (Option.map TaskFailure.relay) _ _ _
  case server =>
    intro place server token failure path htask hpath failures
    have hran := (hmanned.course htask).ne_alreadyRunning nofun
    rw [(hmanned.returned htask hpath hran).2.1, groupFailure?]
    exact apply_ite (Option.map TaskFailure.relay) _ _ _
  case main =>
    intro place token failure htask
    by_cases hran : failure = some (.relay .alreadyRunning)
    · refine .inr ⟨hran, ?_⟩
      subst hran
      exact (hmanned.course htask).staff_eq_nil
    · left
      rw [(hmanned.returned htask rfl hran).2.1, groupFailure?_relay]
      rfl
  case reports =>
    intro place group token failure path htask hpath hran
    exact (hmanned.returned htask hpath hran).2.2
  case reported =>
    intro group path text hpath hseen
    obtain ⟨place, token, htask, htext⟩ := hmanned.reported group path text hpath hseen
    rw [hmanned.countP_eq htask] at htask htext
    rw [stopText?_eq_lastWords] at htext
    exact ⟨place, token, _, htask, htext⟩
  case returns =>
    intro place group token children failures htask hdone
    apply returns_of_done htask
    exact fun child hchild => hdone child ((hmanned.course htask).children_subset hchild)
  case whole =>
    intro hmoves place group token failure htask hran
    exact hmanned.parts_count (stepAll_isOrderly config hmoves).order hreturned htask hran

/-- The relay is run, and its source gives up. The sink has its link when the caller tells the
relay to stop, and ends without a failure. Then each group joins what is below it. -/
def lossyMoves : List Move :=
  [.run (.group .relay) (.caller 0), .poll 0, .poll 1, .poll 2, .poll 3, .poll 4,
    .signal ⟨0, 0, 1⟩ (.dialled (.ok ())), .signal ⟨0, 0, 0⟩ (.dialled (.error "refused")),
    .signal ⟨0, 0, 0⟩ .rested, .signal ⟨0, 0, 0⟩ (.dialled (.error "refused")), .poll 3, .poll 2,
    .cancel (.caller 0), .poll 0, .signal ⟨0, 0, 1⟩ .woken, .poll 4, .poll 2, .poll 2, .poll 1,
    .poll 1, .poll 0, .poll 0]

/-- One of the two connections fails, and so do its endpoint and its server, each with one
failure. The relay does not, but it says that one of its servers has. -/
theorem failures_add_up_lossy :
    let change := (ofConfig twoWayConfig).stepAll lossyMoves
    change.relay.tasks.map Task.phase =
        [.done none, .done (some (.relay (.serverFailed "relay/server[0]" 1))),
          .done (some (.relay (.endpointFailed "relay/server[0]/endpoint[0]" 1))),
          .done (some (.connection (.budgetExhausted "source:1" 1))), .done none] ∧
      .event ⟨path, .stopped (some "1 server(s) failed")⟩ ∈ change.occurrences ∧
      change.relay.failedServers = 1 := by
  intro change
  have hall := failures_add_up twoWayConfig lossyMoves
  have hmain : change.relay.tasks[0]? = some ⟨.group .relay, .caller 0, .done none⟩ := by
    decide +kernel
  have hwords : change.relay.lastWords (fun place => (ofConfig twoWayConfig).startedBy place
      lossyMoves) 0 .relay none = some "1 server(s) failed" := by
    decide +kernel
  have hcount : change.relay.serverFailures (fun place => (ofConfig twoWayConfig).startedBy place
      lossyMoves) 0 = 1 := by
    decide +kernel
  refine ⟨by decide +kernel, ?_, ?_⟩
  · have hreported := hall.reports 0 .relay (.caller 0) none path hmain rfl nofun
    exact hwords ▸ hreported
  · have hwhole := hall.whole (by simp [lossyMoves, Move.RunsRelayOnly]) 0 .relay (.caller 0) none
      hmain nofun
    exact hwhole.symm.trans hcount

end Relay

end LiveRelay
