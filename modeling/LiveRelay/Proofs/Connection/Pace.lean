import LiveRelay.Proofs.Connection.Conduct

/-! # How fast a connection goes

A connection approaches its peer in three ways: it dials, it binds its listener and it accepts.
`Pace` says of every act which changes of state it comes to and what is asked for then, so that
between two approaches of one kind the pause can be found.
-/

namespace LiveRelay

/-- A way to get at a link. -/
inductive Approach where
  | dial
  | listen
  | accept
  deriving DecidableEq

/-- The way that is taken with a request. -/
def Request.approach? : Request → Option Approach
  | .dial _ => some .dial
  | .bind => some .listen
  | .accept => some .accept
  | _ => none

def Effect.request? : Effect → Option Request
  | .request asked => some asked
  | .emit _ => none

/-- Whether a task can wait for this in the role of its connection. -/
def Await.suits : Await → ConnectionRole → Bool
  | .dialling, role => role = .client
  | .binding, role => role = .host
  | .accepting, role => role = .host
  | _, _ => true

theorem Await.suits_of_hasLink {await : Await} (h : await.hasLink = true) (role : ConnectionRole) :
    await.suits role = true := by
  cases await <;> first | rfl | cases h

theorem Await.state_of_hasLink {await : Await} (h : await.hasLink = true) :
    await.state = .active := by
  rw [Await.hasLink_eq] at h
  exact of_decide_eq_true h

/-- A link that is up does not end in a failure to get one. -/
theorem LinkEnds.unlessPeerClosed {config : ConnectionConfig} {await : Await} {signal : Signal}
    {failure : ConnectionError} (h : LinkEnds config await signal failure) :
    ∀ cause ∈ failure.unlessPeerClosed, cause.isEstablishFailure = false := by
  intro cause hcause
  cases h with
  | peerLeft => cases hcause
  | _ =>
      cases hcause
      rfl

theorem Await.hasLink_opening (kind : CodecKind) (framePath : FramePath) :
    (opening kind framePath).hasLink = true := by
  cases framePath <;> rfl

theorem Request.approach?_of_isTraffic {request : Request} (h : request.isTraffic = true) :
    request.approach? = none := by
  cases request <;> first | rfl | cases h

namespace Turn

/-- What is asked for in a turn, in order. -/
def requests (turn : Turn) : List Request := turn.effects.filterMap Effect.request?

/-- Nothing has been done in the turn to get at a link. -/
def IsQuiet (turn : Turn) : Prop := ∀ request ∈ turn.requests, request.approach? = none

variable {turn moved : Turn}

@[simp] theorem transitions_ask (request : Request) (run : Run) (await : Await) :
    (turn.ask request run await).transitions = turn.transitions := by
  simp [transitions, Effect.transition?]

@[simp] theorem requests_ask (request : Request) (run : Run) (await : Await) :
    (turn.ask request run await).requests = turn.requests ++ [request] := by
  simp [requests, Effect.request?]

@[simp] theorem requests_transition (target : ConnectionState) (attempt : Nat)
    (failure : Option ConnectionError) :
    (turn.transition target attempt failure).requests = turn.requests := by
  simp [requests, Effect.request?]

theorem leave_stays (turn : Turn) (await : Await) : Stays turn (turn.leave await) := by
  unfold leave
  split_ifs
  · exact turn.leaveLink_stays
  · constructor <;> rfl

@[simp] theorem transitions_leave (turn : Turn) (await : Await) :
    (turn.leave await).transitions = turn.transitions :=
  (turn.leave_stays await).transitions_eq

@[simp] theorem state_leave (turn : Turn) (await : Await) :
    (turn.leave await).connection.state = turn.connection.state :=
  (turn.leave_stays await).state_eq

@[simp] theorem transitions_learn (turn : Turn) (address : Option SocketAddress) :
    (turn.learn address).transitions = turn.transitions := by
  cases address <;> simp [learn, Effect.transition?]

theorem transitions_finish (turn : Turn) (run : Run) (cancelled : Bool)
    (failure : Option ConnectionError) :
    (turn.finish run cancelled failure).transitions = turn.transitions ++
      if cancelled then
        [⟨turn.connection.state, .draining, run.budget.used, none⟩,
          ⟨.draining, .closed, run.budget.used, failure⟩]
      else [⟨turn.connection.state, .closed, run.budget.used, failure⟩] :=
  (finish_goes turn run cancelled failure).transitions_eq

theorem requests_learn (turn : Turn) (address : Option SocketAddress) :
    (turn.learn address).requests = turn.requests := by
  rw [requests, effects_learn, List.filterMap_append]
  cases address <;> simp [requests, Effect.request?]

/-- Nothing is asked for in a report. -/
theorem filterMap_request?_emit (kinds : List EventKind) :
    (kinds.map Effect.emit).filterMap Effect.request? = [] := by
  simp [List.filterMap_map, Effect.request?, Function.comp_def]

theorem requests_leave (turn : Turn) (await : Await) :
    (turn.leave await).requests = turn.requests ++ if await.hasLink then [.hangUp] else [] := by
  rw [requests, effects_leave, List.filterMap_append, Connection.parting]
  split_ifs
  · rw [List.filterMap_append, filterMap_request?_emit, List.nil_append]
    rfl
  · rfl

theorem requests_finish (turn : Turn) (run : Run) (cancelled : Bool)
    (failure : Option ConnectionError) :
    (turn.finish run cancelled failure).requests =
      turn.requests ++ if run.listening then [.unbind] else [] := by
  rw [requests, effects_finish, Run.ending]
  cases cancelled <;> cases run.listening <;>
    simp [requests, Effect.request?, List.filterMap_cons]

theorem Moves.transitions_eq (h : Moves turn moved) : moved.transitions = turn.transitions :=
  congrArg (List.filterMap Effect.transition?) h.effects_eq

theorem Moves.requests_eq (h : Moves turn moved) : moved.requests = turn.requests :=
  congrArg (List.filterMap Effect.request?) h.effects_eq

theorem Moves.state_eq (h : Moves turn moved) :
    moved.connection.state = turn.connection.state := by
  obtain ⟨stats, hconnection⟩ := h.connection_eq
  rw [hconnection]

theorem isQuiet_mk (connection : Connection) (fanOut : FanOut) :
    ({ connection, fanOut } : Turn).IsQuiet := by
  intro request hrequest
  cases hrequest

theorem Moves.isQuiet (h : Moves turn moved) (hquiet : turn.IsQuiet) : moved.IsQuiet := by
  rw [IsQuiet, h.requests_eq]
  exact hquiet

theorem IsQuiet.transition (h : turn.IsQuiet) (target : ConnectionState) (attempt : Nat)
    (failure : Option ConnectionError) : (turn.transition target attempt failure).IsQuiet := by
  rw [IsQuiet, requests_transition]
  exact h

theorem IsQuiet.reportDrops (h : turn.IsQuiet) : turn.reportDrops.IsQuiet := by
  rw [IsQuiet, requests, reportDrops_eq, List.filterMap_append, filterMap_request?_emit,
    List.append_nil]
  exact h

theorem IsQuiet.leave (h : turn.IsQuiet) (await : Await) : (turn.leave await).IsQuiet := by
  intro request hrequest
  rw [requests_leave] at hrequest
  rcases List.mem_append.mp hrequest with hbefore | hleft
  · exact h request hbefore
  · split_ifs at hleft
    · obtain rfl := List.mem_singleton.mp hleft
      rfl
    · cases hleft

theorem IsQuiet.finish (h : turn.IsQuiet) (run : Run) (cancelled : Bool)
    (failure : Option ConnectionError) : (turn.finish run cancelled failure).IsQuiet := by
  intro request hrequest
  rw [requests_finish] at hrequest
  rcases List.mem_append.mp hrequest with hbefore | hends
  · exact h request hbefore
  · split_ifs at hends
    · obtain rfl := List.mem_singleton.mp hends
      rfl
    · cases hends

theorem IsQuiet.ask (h : turn.IsQuiet) {request : Request} (hrequest : request.isTraffic = true)
    (run : Run) (await : Await) : (turn.ask request run await).IsQuiet := by
  intro other hother
  rw [requests_ask] at hother
  rcases List.mem_append.mp hother with hbefore | hasked
  · exact h other hbefore
  · obtain rfl := List.mem_singleton.mp hasked
    exact Request.approach?_of_isTraffic hrequest

end Turn

namespace Connection

/-- What comes of an act: the changes of state, what is asked for, and how far the connection
has come then. -/
inductive Pace (connection : Connection) : Act → List Transition → List Request → Life → Prop
  | rests (act : Act) : Pace connection act [] [] connection.life
  | begins (h : connection.life = .unstarted) (token : Token) :
      Pace connection (.run token false) [⟨connection.state, .establishing, 0, none⟩]
        [connection.quest (connection.firstRun token)]
        (.running (connection.firstRun token) (connection.questing (connection.firstRun token)))
  | beginsInVain (h : connection.life = .unstarted) (token : Token) :
      Pace connection (.run token true)
        [⟨connection.state, .establishing, 0, none⟩, ⟨.establishing, .draining, 0, none⟩,
          ⟨.draining, .closed, 0, none⟩] [] (.ended none)
  | closes (h : connection.life = .unstarted) :
      Pace connection .close [⟨connection.state, .closed, 0, none⟩] [] (.ended none)
  /-- The listener is bound, and a peer may call. -/
  | listens {run next : Run} (h : connection.life = .running run .binding)
      (hnext : next.listening = true) (signal : Signal) :
      Pace connection (.poll false signal) [] [connection.quest next]
        (.running next (connection.questing next))
  | links {run next : Run} {await await' : Await} (h : connection.life = .running run await)
      {signal : Signal} (hlinks : await.links signal = true) (hlink : await'.hasLink = true)
      {requests : List Request} (hrequests : ∀ request ∈ requests, request.approach? = none) :
      Pace connection (.poll false signal) [⟨connection.state, .active, 0, none⟩] requests
        (.running next await')
  /-- The link stays up. -/
  | proceeds {run : Run} {await await' : Await} (h : connection.life = .running run await)
      (hlink : await.hasLink = true) (hlink' : await'.hasLink = true) (signal : Signal)
      {requests : List Request} (hrequests : ∀ request ∈ requests, request.approach? = none) :
      Pace connection (.poll false signal) [] requests (.running run await')
  /-- The run ends with the link. -/
  | endsLink {run : Run} {await : Await} (h : connection.life = .running run await)
      (hlink : await.hasLink = true) (signal : Signal) {failure : Option ConnectionError}
      (hfailure : ∀ cause ∈ failure, cause.isEstablishFailure = false)
      {requests : List Request} (hrequests : ∀ request ∈ requests, request.approach? = none) :
      Pace connection (.poll false signal)
        [⟨connection.state, .closed, run.budget.used, failure⟩] requests (.ended failure)
  | interrupted {run : Run} {await : Await} (h : connection.life = .running run await)
      (signal : Signal)
      {requests : List Request} (hrequests : ∀ request ∈ requests, request.approach? = none) :
      Pace connection (.poll true signal)
        [⟨connection.state, .draining, run.budget.used, none⟩,
          ⟨.draining, .closed, run.budget.used, none⟩] requests (.ended none)
  | pauses {run next : Run} {await : Await} (h : connection.life = .running run await)
      {signal : Signal} {failure : ConnectionError}
      (hfailure : connection.IsToRetry await signal failure)
      {requests : List Request} (hrequests : ∀ request ∈ requests, request.approach? = none) :
      Pace connection (.poll false signal)
        [⟨connection.state, .reconnecting, run.budget.used, some failure⟩]
        (requests ++ [.pause connection.config.reconnectInterval]) (.running next .pausing)
  | givesUp {run : Run} {await : Await} (h : connection.life = .running run await)
      {signal : Signal} {failure : ConnectionError}
      (hfailure : connection.IsToRetry await signal failure) {last : ConnectionError}
      (hlast : last.isEstablishFailure = false)
      {requests : List Request} (hrequests : ∀ request ∈ requests, request.approach? = none) :
      Pace connection (.poll false signal)
        [⟨connection.state, .reconnecting, run.budget.used, some failure⟩,
          ⟨.reconnecting, .closed, run.budget.used, some last⟩] requests (.ended (some last))
  | retries {run : Run} (h : connection.life = .running run .pausing) :
      Pace connection (.poll false .rested)
        [⟨connection.state, .establishing, run.budget.used, none⟩] [connection.quest run]
        (.running run (connection.questing run))

variable {connection : Connection} {fanOut : FanOut} {act : Act} {turn : Turn}

theorem Conduct.pace (h : connection.Conduct fanOut act turn) :
    connection.Pace act turn.transitions turn.requests turn.connection.life := by
  have hfresh := Turn.isQuiet_mk connection fanOut
  cases h with
  | rests => exact .rests act
  | closes h => exact .closes h
  | begins h token => exact .begins h token
  | beginsInVain h token => exact .beginsInVain h token
  | @interrupted run await h signal =>
      have hquiet := (hfresh.leave await).finish run true none
      rw [Turn.transitions_finish, Turn.transitions_leave, Turn.state_leave,
        Turn.connection_finish]
      exact .interrupted h signal hquiet
  | bound h address =>
      rw [Turn.transitions_ask, Turn.transitions_learn, Turn.requests_ask, Turn.requests_learn]
      exact .listens h rfl _
  | @linked run await h signal hlinks moved hmoves =>
      have hquiet := (hmoves.isQuiet hfresh).transition .active 0 none
      rw [Turn.transitions_ask, Turn.transitions_transition, hmoves.transitions_eq,
        hmoves.state_eq]
      exact .links h hlinks (Await.hasLink_opening _ _) (hquiet.ask rfl _ _)
  | proceeds h hlink hmoves hrequest hlink' =>
      rw [Turn.transitions_ask, hmoves.transitions_eq]
      exact .proceeds h hlink hlink' _ ((hmoves.isQuiet hfresh).ask hrequest.isTraffic _ _)
  | idles => exact .rests _
  | @takes run codec h moved hmoves request await' hrequest hlink' =>
      have hdrops : moved.transitions = [] :=
        hmoves.transitions_eq.trans (Turn.reportDrops_stays _).transitions_eq
      have hquiet : moved.IsQuiet :=
        hmoves.isQuiet (Turn.isQuiet_mk connection moved.fanOut).reportDrops
      rw [Turn.transitions_ask, hdrops]
      exact .proceeds h rfl hlink' _ (hquiet.ask hrequest.isTraffic _ _)
  | @queueClosed run codec h =>
      have hquiet := (hfresh.leave (.watching codec)).finish run false none
      rw [Turn.transitions_finish, Turn.transitions_leave, Turn.state_leave,
        Turn.connection_finish]
      exact .endsLink h rfl _ (by simp) hquiet
  | @singleShotOver run await h signal failure hsingle hends moved hmoves =>
      have hquiet := ((hmoves.isQuiet hfresh).leave await).finish run false
        failure.unlessPeerClosed
      rw [Turn.transitions_finish, Turn.transitions_leave, Turn.state_leave,
        hmoves.transitions_eq, hmoves.state_eq, Turn.connection_finish]
      exact .endsLink h hends.hasLink_eq _ hends.unlessPeerClosed hquiet
  | @pauses run await h signal failure hfailure moved hmoves =>
      have hquiet := (hmoves.isQuiet hfresh).leave await
      rw [Turn.transitions_ask, Turn.transitions_transition, Turn.transitions_leave,
        Turn.state_leave, hmoves.transitions_eq, hmoves.state_eq, Turn.requests_ask,
        Turn.requests_transition]
      exact .pauses h hfailure hquiet
  | @givesUp run await h signal failure hfailure moved hmoves =>
      have hquiet := ((hmoves.isQuiet hfresh).leave await).transition .reconnecting
        run.budget.used (some failure)
      have hends := hquiet.finish run false
        (some (.budgetExhausted connection.config.address run.budget.used))
      rw [Turn.transitions_finish, Turn.transitions_transition, Turn.transitions_leave,
        Turn.state_leave, hmoves.transitions_eq, hmoves.state_eq, Turn.connection_finish]
      exact .givesUp h hfailure rfl hends
  | retried h => exact .retries h

/-- Every act is one of a known pace. -/
theorem act_pace (connection : Connection) (fanOut : FanOut) (act : Act) :
    connection.Pace act (connection.act fanOut act).transitions
      (connection.act fanOut act).requests (connection.act fanOut act).connection.life :=
  (act_conducts connection fanOut act).pace

end Connection

end LiveRelay
