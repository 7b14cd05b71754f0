import LiveRelay.Proofs.Connection.Clock

/-! # What time lies between

`Regular` is what is the case at all times when the clock of a connection is ideal: what it has done
so far is as far apart as its configuration says, and it waits since its last change of state.
`Regular.next` says so of a step, by the pace of the act, and `Regular.afterAll` of a run.
-/

namespace LiveRelay

/-- How a change of state follows on those before it, by the clock. -/
structure Follows (calls : Nat → Attempt Unit) (config : ConnectionConfig)
    (before : List (Timed Transition)) (later : Timed Transition) : Prop where
  /-- Between two attempts the pause is kept. -/
  rested : ∀ earlier ∈ before.getLast?, earlier.event.target = .reconnecting →
    later.event.target = .establishing →
      earlier.time + config.reconnectInterval.nanoseconds = later.time
  inTime : config.role = .client → ∀ earlier ∈ before.getLast?,
    earlier.event.target = .establishing →
      later.time ≤ earlier.time + config.connectionTimeout.nanoseconds
  /-- Unless the run is cancelled, a timeout is reported just when the call has come to nothing by
  the end of its time. -/
  timesOut_iff : config.role = .client → ∀ earlier ∈ before.getLast?,
    earlier.event.target = .establishing → later.event.target ≠ .draining →
      (later.event.failure =
          some (.establishTimeout config.address config.connectionTimeout) ↔
        (calls (attempts before)).outcome? earlier.time
          (earlier.time + config.connectionTimeout.nanoseconds) = none)
  /-- It is reported of calls alone, and then at once. -/
  of_timedOut : ∀ address timeout,
    later.event.failure = some (.establishTimeout address timeout) →
      ∃ earlier ∈ before.getLast?, earlier.event.target = .establishing ∧
        later.time = earlier.time + config.connectionTimeout.nanoseconds

/-- Two requests that approach the peer in the same way are this far apart. -/
def KeepsApart (interval : Duration) (earlier later : Timed Request) : Prop :=
  ∀ approach, earlier.event.approach? = some approach → later.event.approach? = some approach →
    earlier.time + interval.nanoseconds ≤ later.time

namespace Timeline

/-- What is the case while a connection waits for this since it last changed its state. -/
def Stands (config : ConnectionConfig) (timeline : Timeline) (since : Nat) : Await → Prop
  | .dialling => timeline.asked.getLast? = some ⟨since, .dial config.connectionTimeout⟩
  | .binding => ∀ request ∈ timeline.asked, request.event.approach? = some .accept →
      request.time + config.reconnectInterval.nanoseconds ≤ timeline.now
  | .pausing => timeline.asked.getLast? = some ⟨since, .pause config.reconnectInterval⟩ ∧
      ∀ request ∈ timeline.asked, request.time ≤ since
  | _ => True

/-- What is the case when a connection has come this far. -/
def IsAt (config : ConnectionConfig) (timeline : Timeline) : Life → Prop
  | .unstarted => timeline.passed = [] ∧ timeline.asked = []
  | .running _ await => await.suits config.role = true ∧
      ∃ entry ∈ timeline.passed.getLast?, entry.event.target = await.state ∧
        timeline.Stands config entry.time await
  | .ended _ => True

/-- What is always the case by an ideal clock. -/
structure Regular (calls : Nat → Attempt Unit) (config : ConnectionConfig)
    (timeline : Timeline) : Prop where
  coherent : timeline.connection.Coherent
  config_eq : timeline.connection.config = config
  isAt : timeline.IsAt config timeline.connection.life
  asked_le : ∀ request ∈ timeline.asked, request.time ≤ timeline.now
  apart : timeline.asked.Pairwise (KeepsApart config.reconnectInterval)
  follows : Chained (Follows calls config) timeline.passed

end Timeline

variable {calls : Nat → Attempt Unit} {config : ConnectionConfig} {timeline : Timeline}
  {moment : Timed Occasion} {time : Nat}

/-! ## Requests -/

section Requests

variable {asked : List (Timed Request)} {requests : List Request} {interval : Duration}

theorem apart_of_quiet (h : asked.Pairwise (KeepsApart interval))
    (hquiet : ∀ request ∈ requests, request.approach? = none) (time : Nat) :
    (asked ++ requests.map (Timed.mk time)).Pairwise (KeepsApart interval) := by
  have hnone : ∀ {earlier later : Timed Request},
      later ∈ requests.map (Timed.mk time) → KeepsApart interval earlier later := by
    intro earlier later hlater approach hearlier happroach
    obtain ⟨request, hrequest, rfl⟩ := List.mem_map.mp hlater
    rw [hquiet request hrequest] at happroach
    cases happroach
  rw [List.pairwise_append]
  refine ⟨h, ?_, fun _ _ _ hlater => hnone hlater⟩
  exact List.pairwise_of_forall_mem_list fun _ _ _ hlater => hnone hlater

theorem apart_of_quest (h : asked.Pairwise (KeepsApart interval)) {quest : Request}
    (hquest : ∀ request ∈ asked, request.event.approach? = quest.approach? →
      request.time + interval.nanoseconds ≤ time) :
    (asked ++ [quest].map (Timed.mk time)).Pairwise (KeepsApart interval) := by
  rw [List.pairwise_append]
  refine ⟨h, List.pairwise_singleton _ _, ?_⟩
  intro earlier hearlier later hlater approach happroach hsame
  obtain rfl := List.mem_singleton.mp hlater
  exact hquest earlier hearlier (happroach.trans hsame.symm)

theorem asked_le_append {now : Nat} (h : ∀ request ∈ asked, request.time ≤ now)
    (hnow : now ≤ time) (requests : List Request) :
    ∀ request ∈ asked ++ requests.map (Timed.mk time), request.time ≤ time := by
  intro request hrequest
  rcases List.mem_append.mp hrequest with hbefore | hnew
  · exact Nat.le_trans (h request hbefore) hnow
  · obtain ⟨_, -, rfl⟩ := List.mem_map.mp hnew
    exact Nat.le_refl time

end Requests

theorem Await.dialled_of_links {signal : Signal} (h : dialling.links signal = true) :
    ∃ outcome, signal = .dialled outcome := by
  unfold links at h
  split at h
  next => exact ⟨_, rfl⟩
  next heq => cases heq
  next => cases h

theorem Await.eq_dialling {await : Await} (hsuits : await.suits .client = true)
    (hstate : await.state = .establishing) : await = .dialling := by
  cases await with
  | dialling => rfl
  | binding => cases hsuits
  | accepting => cases hsuits
  | _ => cases hstate

/-- What a connection waits for to get a link is for its role. -/
theorem Connection.suits_questing (connection : Connection) (run : Run) :
    (connection.questing run).suits connection.config.role = true := by
  unfold questing
  cases hrole : connection.config.role with
  | client => rfl
  | host => split_ifs <;> rfl

theorem Connection.state_questing (connection : Connection) (run : Run) :
    (connection.questing run).state = .establishing := by
  unfold questing
  split
  · rfl
  · split_ifs <;> rfl

/-! ## Changes of state -/

section Follows

variable {before : List (Timed Transition)} {later last entry : Timed Transition} {run : Run}
  {await : Await} {signal : Signal} {failure : ConnectionError} {source : ConnectionState}
  {used : Nat}

theorem Follows.nil (hfailure : later.event.failure = none) : Follows calls config [] later where
  rested := by simp
  inTime := by simp
  timesOut_iff := by simp
  of_timedOut := by simp [hfailure]

/-- Only the change right before it counts. -/
theorem Follows.of_entry (hentry : entry ∈ before.getLast?)
    (hrested : entry.event.target = .reconnecting → later.event.target = .establishing →
      entry.time + config.reconnectInterval.nanoseconds = later.time)
    (hinTime : config.role = .client → entry.event.target = .establishing →
      later.time ≤ entry.time + config.connectionTimeout.nanoseconds)
    (htimesOut : config.role = .client → entry.event.target = .establishing →
      later.event.target ≠ .draining →
        (later.event.failure =
            some (.establishTimeout config.address config.connectionTimeout) ↔
          (calls (attempts before)).outcome? entry.time
            (entry.time + config.connectionTimeout.nanoseconds) = none))
    (htimedOut : ∀ address timeout,
      later.event.failure = some (.establishTimeout address timeout) →
        entry.event.target = .establishing ∧
          later.time = entry.time + config.connectionTimeout.nanoseconds) :
    Follows calls config before later := by
  have hsame : ∀ earlier ∈ before.getLast?, earlier = entry :=
    fun earlier hearlier => Option.mem_unique hearlier hentry
  constructor
  case rested =>
    intro earlier hearlier
    rw [hsame earlier hearlier]
    exact hrested
  case inTime =>
    intro hrole earlier hearlier
    rw [hsame earlier hearlier]
    exact hinTime hrole
  case timesOut_iff =>
    intro hrole earlier hearlier
    rw [hsame earlier hearlier]
    exact htimesOut hrole
  case of_timedOut =>
    intro address timeout hfailure
    exact ⟨entry, hentry, htimedOut address timeout hfailure⟩

/-- Neither of the two has to do with an attempt. -/
theorem Follows.of_idle (hentry : entry ∈ before.getLast?)
    (hearlier : entry.event.target ≠ .establishing) (hlater : later.event.target ≠ .establishing)
    (hfailure : ∀ cause ∈ later.event.failure, cause.isEstablishFailure = false) :
    Follows calls config before later := by
  apply Follows.of_entry hentry
  case hrested => exact fun _ hattempt => absurd hattempt hlater
  case hinTime => exact fun _ hattempt => absurd hattempt hearlier
  case htimesOut => exact fun _ hattempt => absurd hattempt hearlier
  case htimedOut =>
    intro address timeout htimedOut
    cases hfailure _ htimedOut

theorem Follows.of_draining (hentry : entry ∈ before.getLast?)
    (hlater : later.event.target = .draining) (hfailure : later.event.failure = none)
    (hinTime : config.role = .client → entry.event.target = .establishing →
      later.time ≤ entry.time + config.connectionTimeout.nanoseconds) :
    Follows calls config before later := by
  apply Follows.of_entry hentry
  case hrested => simp [hlater]
  case hinTime => exact hinTime
  case htimesOut => exact fun _ _ hdrains => absurd hlater hdrains
  case htimedOut => simp [hfailure]

/-- Another attempt begins when the pause is over. -/
theorem Follows.of_rested (hentry : entry ∈ before.getLast?)
    (hearlier : entry.event.target = .reconnecting)
    (hrested : entry.time + config.reconnectInterval.nanoseconds = later.time)
    (hfailure : later.event.failure = none) : Follows calls config before later := by
  apply Follows.of_entry hentry
  case hrested => exact fun _ _ => hrested
  case hinTime => simp [hearlier]
  case htimesOut => simp [hearlier]
  case htimedOut => simp [hfailure]

/-- After two changes at once nothing is left to do but to close. -/
theorem chained_closes (h : Chained (Follows calls config) before)
    (hfollows : Follows calls config before later) (hlater : later.event.target ≠ .establishing)
    (hlast : last.event.target ≠ .establishing)
    (hfailure : ∀ cause ∈ last.event.failure, cause.isEstablishFailure = false) :
    Chained (Follows calls config) (before ++ [later, last]) := by
  have hcloses : Follows calls config (before ++ [later]) last :=
    .of_idle List.getLast?_concat hlater hlast hfailure
  simpa using (h.concat hfollows).concat hcloses

/-- A run that is cancelled goes through draining. -/
theorem chained_drains (h : Chained (Follows calls config) before)
    (hentry : entry ∈ before.getLast?)
    (hinTime : config.role = .client → entry.event.target = .establishing →
      time ≤ entry.time + config.connectionTimeout.nanoseconds) :
    Chained (Follows calls config) (before ++
      [⟨time, ⟨source, .draining, used, none⟩⟩, ⟨time, ⟨.draining, .closed, used, none⟩⟩]) :=
  chained_closes h (.of_draining hentry rfl rfl hinTime) (by simp) (by simp) (by simp)

theorem AttemptFails.isTimed (h : AttemptFails config .dialling signal failure) :
    signal.isTimed = true ∧
      (failure = .establishTimeout config.address config.connectionTimeout ↔
        signal = .timedOut) := by
  cases h with
  | undialled => exact ⟨rfl, nofun, nofun⟩
  | timedOut => exact ⟨rfl, fun _ => rfl, fun _ => rfl⟩

namespace Connection.IsToRetry

variable {connection : Connection}

theorem isTimed (h : connection.IsToRetry .dialling signal failure) :
    signal.isTimed = true ∧
      (failure = .establishTimeout connection.config.address
          connection.config.connectionTimeout ↔ signal = .timedOut) := by
  rcases h with hfails | ⟨hends, -⟩
  · exact hfails.isTimed
  · cases hends.hasLink_eq

/-- Only a call times out. -/
theorem of_timedOut {address : String} {timeout : Duration}
    (h : connection.IsToRetry await signal (.establishTimeout address timeout)) :
    await = .dialling ∧ signal = .timedOut := by
  rcases h with hfails | ⟨hends, -⟩
  · cases hfails
    exact ⟨rfl, rfl⟩
  · cases hends.isLinkFailure

end Connection.IsToRetry

namespace Timeline

section Waiting

variable (hmeets : timeline.Meets calls moment)
  (hlife : timeline.connection.life = .running run await)
  (hsuits : await.suits config.role = true) (htarget : entry.event.target = await.state)
  (hstands : timeline.Stands config entry.time await)

include hmeets hlife hsuits htarget hstands

/-- A client does not wait for its call beyond the time it has. -/
theorem le_deadline (hrole : config.role = .client)
    (hattempt : entry.event.target = .establishing) :
    moment.time ≤ entry.time + config.connectionTimeout.nanoseconds := by
  rw [hrole] at hsuits
  obtain rfl := Await.eq_dialling hsuits (htarget.symm.trans hattempt)
  exact hmeets.waits.le_of_dialling hlife hstands

variable (hentry : entry ∈ timeline.passed.getLast?)

include hentry

/-- What an answer comes to, if it is one to what the connection waits for. -/
theorem follows_of_poll (hact : moment.event.act = .poll false signal) {change : Transition}
    (hchange : change.target ≠ .establishing)
    (htimed : await = .dialling → signal.isTimed = true ∧
      (change.failure = some (.establishTimeout config.address config.connectionTimeout) ↔
        signal = .timedOut))
    (htimedOut : ∀ address timeout,
      change.failure = some (.establishTimeout address timeout) →
        await = .dialling ∧ signal = .timedOut) :
    Follows calls config timeline.passed ⟨moment.time, change⟩ := by
  apply Follows.of_entry hentry
  case hrested => exact fun _ hattempt => absurd hattempt hchange
  case hinTime => exact le_deadline hmeets hlife hsuits htarget hstands
  case htimesOut =>
    intro hrole hattempt _
    rw [hrole] at hsuits
    obtain rfl := Await.eq_dialling hsuits (htarget.symm.trans hattempt)
    obtain ⟨hsignal, hfailure⟩ := htimed rfl
    rw [hfailure]
    rcases hmeets.waits.dialling_ends hlife hstands (hmeets.answers signal hact hsignal) with
      ⟨outcome, rfl, houtcome⟩ | ⟨rfl, -, hunfinished⟩
    · simp [houtcome]
    · simp [hunfinished]
  case htimedOut =>
    intro address timeout hfailure
    obtain ⟨rfl, rfl⟩ := htimedOut address timeout hfailure
    rcases hmeets.waits.dialling_ends hlife hstands (hmeets.answers _ hact rfl) with
      ⟨outcome, houtcome, -⟩ | ⟨-, htime, -⟩
    · cases houtcome
    · exact ⟨htarget, htime⟩

/-- A failure that is to be followed by another attempt. -/
theorem follows_of_retry (hact : moment.event.act = .poll false signal)
    (hconfig : timeline.connection.config = config)
    (hfailure : timeline.connection.IsToRetry await signal failure)
    (source : ConnectionState) (used : Nat) :
    Follows calls config timeline.passed
      ⟨moment.time, ⟨source, .reconnecting, used, some failure⟩⟩ := by
  apply follows_of_poll hmeets hlife hsuits htarget hstands hentry hact (by simp)
  case htimed =>
    rintro rfl
    rw [← hconfig]
    simpa using hfailure.isTimed
  case htimedOut =>
    intro address timeout htimedOut
    cases htimedOut
    exact hfailure.of_timedOut

end Waiting

/-! ## One act -/

variable {act : Act} {passed : List Transition} {asked : List Request} {life : Life}

theorem Regular.of_unstarted (h : timeline.Regular calls config)
    (hlife : timeline.connection.life = .unstarted) :
    timeline.passed = [] ∧ timeline.asked = [] := by
  have hat := h.isAt
  rw [hlife] at hat
  exact hat

theorem Regular.of_running (h : timeline.Regular calls config)
    (hlife : timeline.connection.life = .running run await) :
    await.suits config.role = true ∧ ∃ entry ∈ timeline.passed.getLast?,
      entry.event.target = await.state ∧ timeline.Stands config entry.time await := by
  have hat := h.isAt
  rw [hlife] at hat
  exact hat

/-- When a pause is over, all that has been asked for is old enough. -/
theorem Regular.of_rested (h : timeline.Regular calls config)
    (hmeets : timeline.Meets calls moment)
    (hlife : timeline.connection.life = .running run .pausing)
    (hact : moment.event.act = .poll false .rested) :
    (∃ entry ∈ timeline.passed.getLast?, entry.event.target = .reconnecting ∧
        entry.time + config.reconnectInterval.nanoseconds = moment.time) ∧
      ∀ request ∈ timeline.asked,
        request.time + config.reconnectInterval.nanoseconds ≤ moment.time := by
  obtain ⟨-, entry, hentry, htarget, hpause, hbefore⟩ := h.of_running hlife
  have hrested := hmeets.waits.pausing_ends hlife hpause (hmeets.answers .rested hact rfl)
  refine ⟨⟨entry, hentry, htarget, hrested⟩, ?_⟩
  intro request hrequest
  rw [← hrested]
  exact Nat.add_le_add_right (hbefore request hrequest) _

theorem Regular.apart_of_pace (h : timeline.Regular calls config)
    (hmeets : timeline.Meets calls moment) (hact : moment.event.act = act)
    (hpace : timeline.connection.Pace act passed asked life) :
    (timeline.asked ++ asked.map (Timed.mk moment.time)).Pairwise
      (KeepsApart config.reconnectInterval) := by
  obtain rfl := h.config_eq
  cases hpace with
  | rests => exact apart_of_quiet h.apart (by simp) _
  | begins hlife =>
      exact apart_of_quest h.apart (by simp [h.of_unstarted hlife])
  | beginsInVain => exact apart_of_quiet h.apart (by simp) _
  | closes => exact apart_of_quiet h.apart (by simp) _
  | @listens run next hlife hnext =>
      obtain ⟨hsuits, entry, -, -, hstands⟩ := h.of_running hlife
      -- The attempt has not just begun, but what was accepted before was over when it did.
      have hquest : timeline.connection.quest next = .accept := by
        rw [Connection.quest, of_decide_eq_true hsuits, if_pos hnext]
      apply apart_of_quest h.apart
      intro request hrequest happroach
      rw [hquest] at happroach
      exact Nat.le_trans (hstands request hrequest happroach) hmeets.waits.now_le
  | links hlife hlinks hlink hrequests => exact apart_of_quiet h.apart hrequests _
  | proceeds hlife hlink hlink' signal hrequests => exact apart_of_quiet h.apart hrequests _
  | endsLink hlife hlink signal hfailure hrequests => exact apart_of_quiet h.apart hrequests _
  | interrupted hlife signal hrequests => exact apart_of_quiet h.apart hrequests _
  | pauses hlife hfailure hrequests =>
      apply apart_of_quiet h.apart
      intro request hrequest
      rcases List.mem_append.mp hrequest with hleft | hpause
      · exact hrequests request hleft
      · obtain rfl := List.mem_singleton.mp hpause
        rfl
  | givesUp hlife hfailure hlast hrequests => exact apart_of_quiet h.apart hrequests _
  | retries hlife =>
      obtain ⟨-, hasked⟩ := h.of_rested hmeets hlife hact
      exact apart_of_quest h.apart fun request hrequest _ => hasked request hrequest

theorem Regular.follows_of_pace (h : timeline.Regular calls config)
    (hmeets : timeline.Meets calls moment) (hact : moment.event.act = act)
    (hpace : timeline.connection.Pace act passed asked life) :
    Chained (Follows calls config) (timeline.passed ++ passed.map (Timed.mk moment.time)) := by
  obtain rfl := h.config_eq
  cases hpace with
  | rests => simpa using h.follows
  | begins hlife =>
      rw [(h.of_unstarted hlife).1]
      exact (chained_nil _).concat (.nil rfl)
  | beginsInVain hlife =>
      have hbegins : Follows calls timeline.connection.config []
          ⟨moment.time, ⟨timeline.connection.state, .establishing, 0, none⟩⟩ := .nil rfl
      rw [(h.of_unstarted hlife).1]
      exact chained_drains ((chained_nil _).concat hbegins) List.getLast?_concat
        fun _ _ => Nat.le_add_right _ _
  | closes hlife =>
      rw [(h.of_unstarted hlife).1]
      exact (chained_nil _).concat (.nil rfl)
  | listens => simpa using h.follows
  | links hlife hlinks =>
      obtain ⟨hsuits, entry, hentry, htarget, hstands⟩ := h.of_running hlife
      apply h.follows.concat
      apply follows_of_poll hmeets hlife hsuits htarget hstands hentry hact (by simp)
      case htimed =>
        rintro rfl
        obtain ⟨outcome, rfl⟩ := Await.dialled_of_links hlinks
        exact ⟨rfl, nofun, nofun⟩
      case htimedOut =>
        intro address timeout hfailure
        cases hfailure
  | proceeds => simpa using h.follows
  | endsLink hlife hlink signal hfailure =>
      obtain ⟨-, entry, hentry, htarget, -⟩ := h.of_running hlife
      have hactive := htarget.trans (Await.state_of_hasLink hlink)
      exact h.follows.concat (.of_idle hentry (by simp [hactive]) (by simp) hfailure)
  | interrupted hlife signal =>
      obtain ⟨hsuits, entry, hentry, htarget, hstands⟩ := h.of_running hlife
      exact chained_drains h.follows hentry (le_deadline hmeets hlife hsuits htarget hstands)
  | pauses hlife hfailure =>
      obtain ⟨hsuits, entry, hentry, htarget, hstands⟩ := h.of_running hlife
      exact h.follows.concat
        (follows_of_retry hmeets hlife hsuits htarget hstands hentry hact rfl hfailure _ _)
  | givesUp hlife hfailure hlast =>
      obtain ⟨hsuits, entry, hentry, htarget, hstands⟩ := h.of_running hlife
      have hretry := follows_of_retry hmeets hlife hsuits htarget hstands hentry hact rfl hfailure
      exact chained_closes h.follows (hretry _ _) (by simp) (by simp) (by simpa using hlast)
  | retries hlife =>
      obtain ⟨⟨entry, hentry, htarget, hrested⟩, -⟩ := h.of_rested hmeets hlife hact
      exact h.follows.concat (.of_rested hentry htarget hrested rfl)

theorem stands_of_hasLink (h : await.hasLink = true) (since : Nat) :
    timeline.Stands config since await := by
  cases await <;> trivial

variable {later : Timeline}

/-- Time alone takes nothing away. -/
theorem IsAt.wait (h : timeline.IsAt config life) (hnow : timeline.now ≤ later.now)
    (hpassed : later.passed = timeline.passed) (hasked : later.asked = timeline.asked) :
    later.IsAt config life := by
  cases life with
  | unstarted => exact ⟨hpassed.trans h.1, hasked.trans h.2⟩
  | ended => trivial
  | running run await =>
      obtain ⟨hsuits, entry, hentry, htarget, hstands⟩ := h
      rw [← hpassed] at hentry
      refine ⟨hsuits, entry, hentry, htarget, ?_⟩
      cases await with
      | dialling => exact (congrArg List.getLast? hasked).trans hstands
      | binding =>
          intro request hrequest haccept
          rw [hasked] at hrequest
          exact Nat.le_trans (hstands request hrequest haccept) hnow
      | pausing =>
          obtain ⟨hpause, hbefore⟩ := hstands
          rw [← hasked] at hpause hbefore
          exact ⟨hpause, hbefore⟩
      | _ => trivial

/-- An attempt has just begun. -/
theorem isAt_questing {connection : Connection} {asked : List (Timed Request)}
    {entry : Timed Transition} (hpassed : later.passed = before ++ [entry])
    (htarget : entry.event.target = .establishing)
    (hasked : later.asked = asked ++ [⟨entry.time, connection.quest run⟩])
    (haccepts : ∀ request ∈ asked, request.event.approach? = some .accept →
      request.time + connection.config.reconnectInterval.nanoseconds ≤ later.now) :
    later.IsAt connection.config (.running run (connection.questing run)) := by
  refine ⟨connection.suits_questing run, entry, hpassed ▸ List.getLast?_concat,
    htarget.trans (connection.state_questing run).symm, ?_⟩
  unfold Connection.quest at hasked
  unfold Connection.questing
  cases hrole : connection.config.role with
  | client =>
      rw [hrole] at hasked
      simp only [Stands, hasked, List.getLast?_concat]
  | host =>
      simp only [hrole] at hasked ⊢
      split_ifs at hasked ⊢
      · trivial
      · intro request hrequest haccept
        rw [hasked] at hrequest
        rcases List.mem_append.mp hrequest with hbefore | hbind
        · exact haccepts request hbefore haccept
        · obtain rfl := List.mem_singleton.mp hbind
          cases haccept

theorem Regular.isAt_of_pace (h : timeline.Regular calls config)
    (hmeets : timeline.Meets calls moment) (hact : moment.event.act = act)
    (hpace : timeline.connection.Pace act passed asked life) (hnow : later.now = moment.time)
    (hpassed : later.passed = timeline.passed ++ passed.map (Timed.mk moment.time))
    (hasked : later.asked = timeline.asked ++ asked.map (Timed.mk moment.time)) :
    later.IsAt config life := by
  obtain rfl := h.config_eq
  cases hpace with
  | rests =>
      rw [List.map_nil, List.append_nil] at hpassed hasked
      exact IsAt.wait h.isAt (hnow ▸ hmeets.waits.now_le) hpassed hasked
  | begins hlife =>
      rw [(h.of_unstarted hlife).1] at hpassed
      rw [(h.of_unstarted hlife).2] at hasked
      exact isAt_questing hpassed rfl hasked (by simp)
  | beginsInVain => trivial
  | closes => trivial
  | @listens run next hlife hnext =>
      obtain ⟨hsuits, entry, hentry, htarget, -⟩ := h.of_running hlife
      have haccepting : timeline.connection.questing next = .accepting := by
        rw [Connection.questing, of_decide_eq_true hsuits, if_pos hnext]
      rw [haccepting]
      rw [List.map_nil, List.append_nil] at hpassed
      rw [← hpassed] at hentry
      exact ⟨hsuits, entry, hentry, htarget, trivial⟩
  | links hlife hlinks hlink =>
      exact ⟨Await.suits_of_hasLink hlink _, _, hpassed ▸ List.getLast?_concat,
        (Await.state_of_hasLink hlink).symm, stands_of_hasLink hlink _⟩
  | proceeds hlife hlink hlink' =>
      obtain ⟨-, entry, hentry, htarget, -⟩ := h.of_running hlife
      rw [List.map_nil, List.append_nil] at hpassed
      rw [← hpassed] at hentry
      have hactive := htarget.trans (Await.state_of_hasLink hlink)
      exact ⟨Await.suits_of_hasLink hlink' _, entry, hentry,
        hactive.trans (Await.state_of_hasLink hlink').symm, stands_of_hasLink hlink' _⟩
  | endsLink => trivial
  | interrupted => trivial
  | pauses hlife hfailure hrequests =>
      refine ⟨rfl, _, hpassed ▸ List.getLast?_concat, rfl, ?_, ?_⟩
      · rw [hasked, List.map_append, ← List.append_assoc]
        exact List.getLast?_concat
      · rw [hasked]
        exact asked_le_append h.asked_le hmeets.waits.now_le _
  | givesUp => trivial
  | retries hlife =>
      obtain ⟨-, hbefore⟩ := h.of_rested hmeets hlife hact
      rw [← hnow] at hbefore
      exact isAt_questing hpassed rfl hasked fun request hrequest _ => hbefore request hrequest

/-- What is always the case stays so in an act. -/
theorem Regular.next (h : timeline.Regular calls config)
    (hmeets : timeline.Meets calls moment) : (timeline.next moment).Regular calls config := by
  let step : Step := ⟨timeline.connection, moment.event⟩
  have hpace := timeline.connection.act_pace moment.event.fanOut moment.event.act
  constructor
  case coherent => exact step.after_coherent h.coherent
  case config_eq => exact (step.after_config h.coherent).trans h.config_eq
  case isAt => exact h.isAt_of_pace hmeets rfl hpace rfl rfl rfl
  case asked_le => exact asked_le_append h.asked_le hmeets.waits.now_le _
  case apart => exact h.apart_of_pace hmeets rfl hpace
  case follows => exact h.follows_of_pace hmeets rfl hpace

/-- It is the case at the end, and then the connection can wait. -/
theorem Regular.afterAll {finish : Nat} {moments : List (Timed Occasion)}
    (h : timeline.Regular calls config) (hpunctual : IsPunctual calls finish timeline moments) :
    (timeline.afterAll moments).Regular calls config ∧
      (timeline.afterAll moments).Waits calls finish := by
  induction moments generalizing timeline with
  | nil => exact ⟨h, hpunctual⟩
  | cons moment moments ih => exact ih (h.next hpunctual.1) hpunctual.2

end Timeline

end Follows

end LiveRelay
