import LiveRelay.Proofs.Endpoint.Histories
import LiveRelay.Proofs.Relay.Projection

/-! # What a move does to one endpoint

For each endpoint by itself, a move of the relay is a list of things that happen to it, and
`Admits` says which those can be: a connection takes a step only in a move that is about it,
and the fan-out is closed when the endpoint is, or when its run ends (`step_goesBy`).
-/

namespace LiveRelay

/-- The endpoint is a part of the component, or the component itself. -/
def Component.Holds : Component → (server endpoint : Nat) → Prop
  | .group .relay, _, _ => True
  | .group (.server server), server', _ => server' = server
  | .group (.endpoint server endpoint), server', endpoint' =>
      server' = server ∧ endpoint' = endpoint
  | .connection _, _, _ => False

theorem Component.Holds.covers {component : Component} {server endpoint : Nat}
    (h : component.Holds server endpoint) (index : Nat) :
    component.Covers ⟨server, endpoint, index⟩ := by
  cases component with
  | connection id => exact h.elim
  | group group => cases group <;> exact h

namespace Relay

variable {relay : Relay} {server endpoint : Nat}

/-- What a move lets happen to the endpoint at this place. -/
inductive Admits (relay : Relay) (server endpoint : Nat) : Move → EndpointAct → Prop
  | signals {index : Nat} {connection : Connection}
      (hconnection : relay.connection? ⟨server, endpoint, index⟩ = some connection)
      (signal : Signal) :
      Admits relay server endpoint (.signal ⟨server, endpoint, index⟩ signal)
        (.connection index (.poll (relay.interrupts connection) signal))
  | closes {component : Component} {index : Nat}
      (h : component.Covers ⟨server, endpoint, index⟩) :
      Admits relay server endpoint (.close component) (.connection index .close)
  | begins {place index : Nat} {token : Token}
      (htask : relay.tasks[place]? =
        some ⟨.connection ⟨server, endpoint, index⟩, token, .ready⟩) :
      Admits relay server endpoint (.poll place)
        (.connection index (.run token (relay.isCancelled token)))
  | closesFanOut {component : Component} (h : component.Holds server endpoint) :
      Admits relay server endpoint (.close component) .closeFanOut
  /-- The run of the endpoint ends. -/
  | ends {place failures : Nat} {token : Token}
      (htask : relay.tasks[place]? =
        some ⟨.group (.endpoint server endpoint), token, .joining [] failures⟩) :
      Admits relay server endpoint (.poll place) .closeFanOut

/-- From `before` to `after`, only what is allowed has happened to the endpoint. -/
def GoesBy (before after : Relay) (server endpoint : Nat) (allowed : EndpointAct → Prop) : Prop :=
  ∃ acts : List EndpointAct, (∀ act ∈ acts, allowed act) ∧
    after.endpoint? server endpoint = (before.endpoint? server endpoint).map (·.afterAll acts)

namespace GoesBy

variable {before middle after : Relay} {allowed : EndpointAct → Prop}

theorem of_servers_eq (h : after.servers = before.servers) :
    GoesBy before after server endpoint allowed := by
  refine ⟨[], nofun, ?_⟩
  rw [endpoint?_congr h]
  exact Option.map_id'.symm

theorem trans (first : GoesBy before middle server endpoint allowed)
    (second : GoesBy middle after server endpoint allowed) :
    GoesBy before after server endpoint allowed := by
  obtain ⟨acts, hacts, hmiddle⟩ := first
  obtain ⟨more, hmore, hafter⟩ := second
  refine ⟨acts ++ more, ?_, ?_⟩
  · intro act hact
    exact (List.mem_append.mp hact).elim (hacts act) (hmore act)
  · rw [hafter, hmiddle, Option.map_map]
    congr 1
    funext value
    exact (value.afterAll_append acts more).symm

/-- What happens at one place happens there only. -/
theorem of_act {place : Prop} [Decidable place] {act : EndpointAct} (h : place → allowed act)
    (hafter : after.endpoint? server endpoint = (before.endpoint? server endpoint).map
      fun value => if place then value.act act else value) :
    GoesBy before after server endpoint allowed := by
  by_cases hplace : place
  · refine ⟨[act], fun other hother => ?_, ?_⟩
    · obtain rfl := List.mem_singleton.mp hother
      exact h hplace
    · rw [hafter]
      simp only [if_pos hplace]
      rfl
  · refine ⟨[], nofun, ?_⟩
    rw [hafter]
    simp only [if_neg hplace]
    rfl

theorem act (relay : Relay) (id : ConnectionId) (act : Act)
    (h : server = id.server ∧ endpoint = id.endpoint → allowed (.connection id.index act)) :
    GoesBy relay (relay.act id act).relay server endpoint allowed :=
  of_act h (relay.endpoint?_act id act server endpoint)

theorem closeFanOut (relay : Relay) {server' endpoint' : Nat}
    (h : server = server' ∧ endpoint = endpoint' → allowed .closeFanOut) :
    GoesBy relay (relay.closeFanOut server' endpoint') server endpoint allowed :=
  of_act h (relay.endpoint?_closeFanOut server' endpoint' server endpoint)

end GoesBy

/-- What is kept by closing any of the parts is kept by closing each of them. -/
theorem closeEach_keeps {close : Relay → Nat → Change} {motive : Relay → Prop}
    (h : ∀ relay index, motive relay → motive (close relay index).relay) (count : Nat)
    (hbegin : motive relay) : motive (closeEach close count relay).relay := by
  have hfold : ∀ (indices : List Nat) (change : Change), motive change.relay →
      motive (indices.foldl (fun change index => change.andThen (close · index)) change).relay := by
    intro indices
    induction indices with
    | nil => exact fun _ hchange => hchange
    | cons index indices ih => exact fun change hchange => ih _ (h _ index hchange)
  exact hfold _ _ hbegin

/-- Closing a component comes to closing fan-outs that it holds and connections that it covers,
and cancelling the token of the relay if that is the component. -/
theorem close_keeps {component : Component} {motive : Relay → Prop}
    (hcancel : component = .group .relay → ∀ relay, motive relay → motive (relay.cancel .relay))
    (hfanOut : ∀ relay server endpoint, component.Holds server endpoint → motive relay →
      motive (relay.closeFanOut server endpoint))
    (hconnection : ∀ relay id, component.Covers id → motive relay →
      motive (relay.act id .close).relay)
    (hbegin : motive relay) : motive (relay.close component).relay := by
  have hendpoint : ∀ (relay : Relay) (server endpoint : Nat), component.Holds server endpoint →
      motive relay → motive (relay.closeEndpoint server endpoint).relay := by
    intro relay server endpoint hholds hrelay
    exact closeEach_keeps (fun relay index => hconnection relay _ (hholds.covers index)) _
      (hfanOut relay server endpoint hholds hrelay)
  have hserver : ∀ (relay : Relay) (server : Nat),
      (∀ endpoint, component.Holds server endpoint) →
      motive relay → motive (relay.closeServer server).relay := by
    intro relay server hholds hrelay
    exact closeEach_keeps
      (fun relay endpoint => hendpoint relay server endpoint (hholds endpoint)) _ hrelay
  cases component with
  | connection id => exact hconnection relay id rfl hbegin
  | group group =>
      cases group with
      | relay =>
          exact closeEach_keeps (fun relay server => hserver relay server fun _ => trivial) _
            (hcancel rfl relay hbegin)
      | server server =>
          refine hserver relay server ?_ hbegin
          exact fun _ => rfl
      | endpoint server endpoint =>
          refine hendpoint relay server endpoint ?_ hbegin
          exact ⟨rfl, rfl⟩

theorem servers_stop (relay : Relay) (reason : String) :
    (relay.stop reason).relay.servers = relay.servers := by
  unfold stop
  split_ifs
  · rfl
  · exact servers_cancel _ _

/-! ## Tasks that are looked at -/

/-- What a task of a connection does: it may begin its run, and otherwise only goes on itself. -/
theorem poll?_connection {place : Nat} {id : ConnectionId} {token : Token} {phase : TaskPhase}
    (htask : relay.tasks[place]? = some ⟨.connection id, token, phase⟩) {change : Change}
    (h : relay.poll? place = some change) :
    (phase = .ready ∧ change = relay.begun place id token) ∨
      ∃ later, change = ⟨relay.setPhase place later, []⟩ := by
  unfold poll? at h
  obtain ⟨task, htask', hnext⟩ := Option.bind_eq_some_iff.mp h
  obtain rfl := Option.some.inj (htask.symm.trans htask')
  cases phase with
  | ready =>
      obtain rfl := Option.some.inj hnext
      by_cases hfirst : ∃ connection, relay.connection? id = some connection ∧
          connection.life = .unstarted
      · obtain ⟨connection, hconnection, hlife⟩ := hfirst
        exact .inl ⟨rfl, beginConnection_eq_begun hconnection hlife place token⟩
      · exact .inr ⟨_, beginConnection_eq_done (fun connection hconnection hlife =>
          hfirst ⟨connection, hconnection, hlife⟩) place token⟩
  | driving =>
      right
      obtain ⟨connection, -, hlife⟩ := Option.bind_eq_some_iff.mp hnext
      split at hlife
      next =>
        obtain rfl := Option.some.inj hlife
        exact ⟨_, rfl⟩
      next => cases hlife
  | joining => cases hnext
  | done => cases hnext

/-- How the tree and the tokens change when the task of a group is looked at. -/
inductive Polled (relay : Relay) (place : Nat) (group : Group) (after : Relay) : Prop
  /-- The group begins, is refused, or joins a part. -/
  | rests (hservers : after.servers = relay.servers)
      (hcancelled : after.cancelled = relay.cancelled)
  /-- The relay has been told to stop by its caller. -/
  | stops {caller : Token} {children : List Nat} {failures : Nat}
      (htask : relay.tasks[place]? = some ⟨.group .relay, caller, .joining children failures⟩)
      (hcaller : relay.isCancelled caller = true)
      (hservers : after.servers = (relay.cancel .relay).servers)
      (hcancelled : after.cancelled = (relay.cancel .relay).cancelled)
  /-- The last part has been joined. -/
  | ends {token : Token} {failures : Nat}
      (htask : relay.tasks[place]? = some ⟨.group group, token, .joining [] failures⟩)
      (hafter : after = (relay.endGroup place group failures).relay)

theorem beginGroup_rests (relay : Relay) (place : Nat) (group : Group) (token : Token) :
    (relay.beginGroup place group token).relay.servers = relay.servers ∧
      (relay.beginGroup place group token).relay.cancelled = relay.cancelled := by
  unfold beginGroup
  split <;> exact ⟨rfl, rfl⟩

theorem beginRelay_rests (relay : Relay) (place : Nat) (token : Token) :
    (relay.beginRelay place token).relay.servers = relay.servers ∧
      (relay.beginRelay place token).relay.cancelled = relay.cancelled := by
  have hrun := beginGroup_rests { relay with hasRun := true } place .relay token
  unfold beginRelay
  split_ifs
  · exact ⟨rfl, rfl⟩
  · simp only []
    split <;> exact hrun

theorem advanceGroup?_polled {place : Nat} {group : Group} {token : Token} {children : List Nat}
    {failures : Nat} {change : Change}
    (htask : relay.tasks[place]? = some ⟨.group group, token, .joining children failures⟩)
    (h : relay.advanceGroup? place group token children failures = some change) :
    relay.Polled place group change.relay := by
  unfold advanceGroup? at h
  split at h
  next =>
    obtain rfl := Option.some.inj h
    unfold join
    simp only []
    split <;> exact .rests rfl rfl
  next =>
    split_ifs at h with hempty hstops
    · obtain rfl := Option.some.inj h
      obtain rfl : children = [] := List.isEmpty_iff.mp hempty
      exact .ends htask rfl
    · obtain rfl := Option.some.inj h
      obtain ⟨rfl, hcaller, hrunning⟩ := hstops
      have hopen : ¬relay.isCancelled .relay = true := by simpa using hrunning
      refine .stops htask hcaller ?_ ?_
      · rw [stop, if_neg hopen]
      · rw [stop, if_neg hopen]

theorem poll?_group {place : Nat} {group : Group} {token : Token} {phase : TaskPhase}
    (htask : relay.tasks[place]? = some ⟨.group group, token, phase⟩) {change : Change}
    (h : relay.poll? place = some change) : relay.Polled place group change.relay := by
  unfold poll? at h
  obtain ⟨task, htask', hnext⟩ := Option.bind_eq_some_iff.mp h
  obtain rfl := Option.some.inj (htask.symm.trans htask')
  cases phase with
  | ready =>
      obtain rfl := Option.some.inj hnext
      have hgroup := relay.beginGroup_rests place group token
      have hrelay := relay.beginRelay_rests place token
      cases group with
      | relay => exact .rests hrelay.1 hrelay.2
      | server => exact .rests hgroup.1 hgroup.2
      | endpoint => exact .rests hgroup.1 hgroup.2
  | joining children failures => exact advanceGroup?_polled htask hnext
  | driving => cases hnext
  | done => cases hnext

/-! ## One move -/

/-- To each endpoint only that happens which the move admits. -/
theorem step_goesBy (relay : Relay) (move : Move) (server endpoint : Nat) :
    GoesBy relay (relay.step move).relay server endpoint (relay.Admits server endpoint move) := by
  cases move with
  | run component token => exact .of_servers_eq rfl
  | cancel token => exact .of_servers_eq (servers_cancel _ _)
  | expire place =>
      simp only [step, expire]
      split
      next => exact .of_servers_eq (servers_stop _ _)
      next => exact .of_servers_eq rfl
  | signal id signal =>
      cases hconnection : relay.connection? id with
      | none =>
          simp only [step, Relay.signal, stepConnection_of_none hconnection]
          exact .of_servers_eq rfl
      | some connection =>
          simp only [step, signal_eq_act hconnection]
          apply GoesBy.act
          rintro ⟨rfl, rfl⟩
          exact .signals hconnection signal
  | close component =>
      apply close_keeps
        (motive := fun later => GoesBy relay later server endpoint
          (relay.Admits server endpoint (.close component)))
      · exact fun _ later hlater => hlater.trans (.of_servers_eq (servers_cancel _ _))
      · intro later server' endpoint' hholds hlater
        apply hlater.trans
        apply GoesBy.closeFanOut
        rintro ⟨rfl, rfl⟩
        exact .closesFanOut hholds
      · intro later id hcovers hlater
        apply hlater.trans
        apply GoesBy.act
        rintro ⟨rfl, rfl⟩
        exact .closes hcovers
      · exact .of_servers_eq rfl
  | poll place =>
      simp only [step]
      cases hpoll : relay.poll? place with
      | none => exact .of_servers_eq rfl
      | some change =>
          obtain ⟨⟨component, token, phase⟩, htask, -⟩ := Option.bind_eq_some_iff.mp hpoll
          cases component with
          | connection id =>
              rcases poll?_connection htask hpoll with ⟨rfl, rfl⟩ | ⟨later, rfl⟩
              · have hact : GoesBy relay (relay.act id (.run token (relay.isCancelled token))).relay
                    server endpoint (relay.Admits server endpoint (.poll place)) := by
                  apply GoesBy.act
                  rintro ⟨rfl, rfl⟩
                  exact .begins htask
                exact hact.trans (.of_servers_eq rfl)
              · exact .of_servers_eq rfl
          | group group =>
              cases poll?_group htask hpoll with
              | rests hservers => exact .of_servers_eq hservers
              | stops _ _ hservers =>
                  exact .of_servers_eq (hservers.trans (servers_cancel _ _))
              | ends htask' hafter =>
                  rw [Option.getD_some, hafter]
                  unfold endGroup
                  cases group with
                  | relay => exact .of_servers_eq (servers_cancel _ _)
                  | server => exact .of_servers_eq rfl
                  | endpoint server' endpoint' =>
                      have hcloses : GoesBy relay (relay.closeFanOut server' endpoint') server
                          endpoint (relay.Admits server endpoint (.poll place)) := by
                        apply GoesBy.closeFanOut
                        rintro ⟨rfl, rfl⟩
                        exact .ends htask'
                      exact hcloses.trans (.of_servers_eq rfl)

end Relay

end LiveRelay
