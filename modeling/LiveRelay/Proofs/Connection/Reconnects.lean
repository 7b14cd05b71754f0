import LiveRelay.Proofs.Connection.Intervals

/-! # Connections that keep their times

By an ideal clock a connection waits out the reconnect interval between one attempt and the next,
whatever the attempts and the links come to, so it cannot hammer its peer. A client gives up a
call when the connection timeout is over, neither before nor after.
-/

namespace LiveRelay

/-- How often the peer is approached in this way in the time from `start` on. -/
def Timeline.approaches (timeline : Timeline) (approach : Approach) (start span : Nat) : Nat :=
  timeline.asked.countP fun request =>
    request.event.approach? = some approach ∧ start ≤ request.time ∧ request.time ≤ start + span

/-- What a connection with this configuration has done by `finish` is in time, when the call of
the `n`-th attempt goes as `calls n` says. -/
structure KeepsTime (calls : Nat → Attempt Unit) (config : ConnectionConfig) (finish : Nat)
    (timeline : Timeline) : Prop where
  follows : ∀ before later rest, timeline.passed = before ++ later :: rest →
    Follows calls config before later
  /-- A client that is establishing has not been so for too long. -/
  inTime : config.role = .client → timeline.connection.state = .establishing →
    ∃ entry ∈ timeline.passed.getLast?, entry.event.target = .establishing ∧
      finish ≤ entry.time + config.connectionTimeout.nanoseconds
  /-- Between an attempt and the next there is one pause. -/
  pauses : ∀ first earlier between later last,
    timeline.passed = first ++ earlier :: (between ++ later :: last) →
      earlier.event.isAttempt = true → later.event.isAttempt = true →
        (∀ entry ∈ between, entry.event.isAttempt = false) →
          ∃ pause, between.filter (·.event.target = .reconnecting) = [pause] ∧
            pause.time + config.reconnectInterval.nanoseconds = later.time
  approaches_le : 0 < config.reconnectInterval.nanoseconds → ∀ approach start span,
    timeline.approaches approach start span ≤ span / config.reconnectInterval.nanoseconds + 1

/-! ## Counting approaches -/

/-- Times that are far apart take up their time. -/
theorem length_mul_le_of_apart {interval start finish : Nat} {times : List Nat}
    (h : times.Pairwise (· + interval ≤ ·)) (hwithin : ∀ time ∈ times, start ≤ time ∧ time ≤ finish)
    (hstart : start ≤ finish + interval) :
    start + times.length * interval ≤ finish + interval := by
  induction times generalizing start with
  | nil => simpa using hstart
  | cons time times ih =>
      obtain ⟨hnext, htimes⟩ := List.pairwise_cons.mp h
      obtain ⟨hfrom, hto⟩ := hwithin time List.mem_cons_self
      have hlater : ∀ other ∈ times, time + interval ≤ other ∧ other ≤ finish :=
        fun other hother => ⟨hnext other hother, (hwithin other (List.mem_cons_of_mem _ hother)).2⟩
      have hrest := ih htimes hlater (Nat.add_le_add_right hto interval)
      rw [List.length_cons, Nat.succ_mul]
      omega

theorem approaches_le_of_apart {timeline : Timeline} {interval : Duration}
    (h : timeline.asked.Pairwise (KeepsApart interval)) (hinterval : 0 < interval.nanoseconds)
    (approach : Approach) (start span : Nat) :
    timeline.approaches approach start span ≤ span / interval.nanoseconds + 1 := by
  rw [Timeline.approaches, List.countP_eq_length_filter]
  set within := timeline.asked.filter fun request =>
    request.event.approach? = some approach ∧ start ≤ request.time ∧ request.time ≤ start + span
    with hwithin
  have hmem : ∀ request ∈ within, request.event.approach? = some approach ∧
      start ≤ request.time ∧ request.time ≤ start + span := by
    intro request hrequest
    exact of_decide_eq_true (List.mem_filter.mp hrequest).2
  have hapart : (within.map Timed.time).Pairwise (· + interval.nanoseconds ≤ ·) := by
    rw [List.pairwise_map]
    refine (h.filter _).imp_of_mem ?_
    intro earlier later hearlier hlater hkeeps
    exact hkeeps approach (hmem earlier hearlier).1 (hmem later hlater).1
  have htimes : ∀ time ∈ within.map Timed.time, start ≤ time ∧ time ≤ start + span := by
    intro time htime
    obtain ⟨request, hrequest, rfl⟩ := List.mem_map.mp htime
    exact (hmem request hrequest).2
  have hlength := length_mul_le_of_apart hapart htimes (by omega)
  rw [List.length_map] at hlength
  rw [← Nat.add_div_right span hinterval, Nat.le_div_iff_mul_le hinterval]
  omega

/-! ## One pause between two attempts -/

/-- The change is one that a connection can make. -/
def Transition.IsEdge (change : Transition) : Prop :=
  ∃ earlier step, Edge earlier step change.source change.target

section Path

variable {changes : List Transition} {between : List (Timed Transition)}
  {source target : ConnectionState}

/-- Nothing leads back to idle. -/
theorem IsPath.target_ne_idle (h : IsPath source changes target)
    (hedges : ∀ change ∈ changes, change.IsEdge) (hsource : source ≠ .idle) : target ≠ .idle := by
  induction changes generalizing source with
  | nil => exact h ▸ hsource
  | cons change changes ih =>
      obtain ⟨⟨earlier, step, hedge⟩, hlater⟩ := List.forall_mem_cons.mp hedges
      exact ih h.2 hlater hedge.target_ne_idle

/-- Nor does anything lead from draining or closed to another attempt. -/
theorem IsPath.target_ne_reconnecting (h : IsPath source changes target)
    (hedges : ∀ change ∈ changes, change.IsEdge) (hsource : source = .draining ∨ source = .closed) :
    target ≠ .reconnecting := by
  induction changes generalizing source with
  | nil =>
      obtain rfl : source = target := h
      rintro rfl
      rcases hsource with hdraining | hclosed
      · cases hdraining
      · cases hclosed
  | cons change changes ih =>
      obtain ⟨rfl, hrest⟩ := h
      obtain ⟨⟨earlier, step, hedge⟩, hlater⟩ := List.forall_mem_cons.mp hedges
      have hclosed : change.target = .closed := by
        rcases hsource with hdraining | hclosed
        · rw [hdraining] at hedge
          exact hedge.target_of_draining
        · exact absurd hclosed hedge.source_ne_closed
      exact ih hrest hlater (.inr hclosed)

/-- Who pauses and goes on comes to another attempt. -/
theorem eq_nil_of_pausing (h : IsPath .reconnecting changes .reconnecting)
    (hedges : ∀ change ∈ changes, change.IsEdge)
    (hattempts : ∀ change ∈ changes, change.isAttempt = false) : changes = [] := by
  cases changes with
  | nil => rfl
  | cons change changes =>
      exfalso
      obtain ⟨hsource, hrest⟩ := h
      obtain ⟨⟨earlier, step, hedge⟩, hlater⟩ := List.forall_mem_cons.mp hedges
      rw [hsource] at hedge
      have hover : change.target = .draining ∨ change.target = .closed := by
        rcases hedge.target_of_reconnecting with hattempt | hover
        · have hnone := hattempts change List.mem_cons_self
          rw [Transition.isAttempt, hattempt] at hnone
          cases hnone
        · exact hover
      exact hrest.target_ne_reconnecting hlater hover rfl

/-- What lies between two attempts ends with a pause, and there is no other. -/
theorem exists_pause (h : IsPath source (between.map Timed.event) .reconnecting)
    (hedges : ∀ change ∈ between.map Timed.event, change.IsEdge)
    (hattempts : ∀ entry ∈ between, entry.event.isAttempt = false)
    (hsource : source = .establishing ∨ source = .active) :
    ∃ front pause, between = front ++ [pause] ∧ pause.event.target = .reconnecting ∧
      ∀ entry ∈ front, entry.event.target ≠ .reconnecting := by
  -- By the states in order: the link may come up once, and after the pause nothing else fits.
  induction between generalizing source with
  | nil =>
      obtain rfl : source = .reconnecting := h
      rcases hsource with hestablishing | hactive
      · cases hestablishing
      · cases hactive
  | cons entry between ih =>
      obtain ⟨-, hrest⟩ := h
      obtain ⟨⟨earlier, step, hedge⟩, hlater⟩ := List.forall_mem_cons.mp hedges
      obtain ⟨hattempt, hnone⟩ := List.forall_mem_cons.mp hattempts
      cases htarget : entry.event.target with
      | idle => exact absurd htarget hedge.target_ne_idle
      | establishing =>
          rw [Transition.isAttempt, htarget] at hattempt
          cases hattempt
      | active =>
          rw [htarget] at hrest
          obtain ⟨front, pause, rfl, hpause, hfront⟩ := ih hrest hlater hnone (.inr rfl)
          refine ⟨entry :: front, pause, rfl, hpause, ?_⟩
          exact List.forall_mem_cons.mpr ⟨by simp [htarget], hfront⟩
      | reconnecting =>
          rw [htarget] at hrest
          have hnil := eq_nil_of_pausing hrest hlater (by simpa using hnone)
          obtain rfl := List.map_eq_nil_iff.mp hnil
          exact ⟨[], entry, rfl, htarget, by simp⟩
      | draining => exact absurd rfl (hrest.target_ne_reconnecting hlater (.inl htarget))
      | closed => exact absurd rfl (hrest.target_ne_reconnecting hlater (.inr htarget))

end Path

namespace Timeline

/-- By the clock or not, what is reported is the same. -/
theorem passed_afterAll (timeline : Timeline) (moments : List (Timed Occasion)) :
    (timeline.afterAll moments).passed.map Timed.event =
      timeline.passed.map Timed.event ++
        reported (timeline.connection.history (moments.map Timed.event)) := by
  induction moments generalizing timeline with
  | nil => exact (List.append_nil _).symm
  | cons moment moments ih =>
      refine (ih (timeline.next moment)).trans ?_
      simp [next, Connection.history, reported, Function.comp_def]

variable {calls : Nat → Attempt Unit} {finish : Nat} {moments : List (Timed Occasion)}

/-- A connection that has not been run and is as yet without a log. -/
theorem regular_ofConfig (calls : Nat → Attempt Unit) (parent : ComponentPath)
    (config : ConnectionConfig) (framePath : FramePath) :
    Regular calls config { connection := .ofConfig parent config framePath } where
  coherent := Connection.ofConfig_coherent parent config framePath
  config_eq := rfl
  isAt := ⟨rfl, rfl⟩
  asked_le := by simp
  apart := List.Pairwise.nil
  follows := chained_nil _

/-- A client that is establishing waits for its call. -/
theorem Regular.inTime {config : ConnectionConfig} {timeline : Timeline}
    (h : timeline.Regular calls config) (hwaits : timeline.Waits calls finish)
    (hrole : config.role = .client) (hstate : timeline.connection.state = .establishing) :
    ∃ entry ∈ timeline.passed.getLast?, entry.event.target = .establishing ∧
      finish ≤ entry.time + config.connectionTimeout.nanoseconds := by
  rw [h.coherent] at hstate
  cases hlife : timeline.connection.life with
  | unstarted =>
      rw [hlife] at hstate
      cases hstate
  | ended =>
      rw [hlife] at hstate
      cases hstate
  | running run await =>
      rw [hlife] at hstate
      obtain ⟨hsuits, entry, hentry, htarget, hstands⟩ := h.of_running hlife
      rw [hrole] at hsuits
      obtain rfl := Await.eq_dialling hsuits hstate
      exact ⟨entry, hentry, htarget, hwaits.le_of_dialling hlife hstands⟩

/-- The edges of a connection leave no other way from an attempt to the next. -/
theorem Regular.pauses {config : ConnectionConfig} {timeline : Timeline}
    {target : ConnectionState} (h : timeline.Regular calls config)
    (hpath : IsPath .idle (timeline.passed.map Timed.event) target)
    (hedges : ∀ change ∈ timeline.passed.map Timed.event, change.IsEdge)
    {first between last : List (Timed Transition)} {earlier later : Timed Transition}
    (hpassed : timeline.passed = first ++ earlier :: (between ++ later :: last))
    (hearlier : earlier.event.isAttempt = true) (hlater : later.event.isAttempt = true)
    (hbetween : ∀ entry ∈ between, entry.event.isAttempt = false) :
    ∃ pause, between.filter (·.event.target = .reconnecting) = [pause] ∧
      pause.time + config.reconnectInterval.nanoseconds = later.time := by
  have hbegins := of_decide_eq_true hearlier
  have hretries := of_decide_eq_true hlater
  rw [hpassed] at hpath hedges
  simp only [List.map_append, List.map_cons] at hpath hedges
  obtain ⟨_, -, -, hrest⟩ := isPath_append.mp hpath
  obtain ⟨source, hpath, hsource, -⟩ := isPath_append.mp hrest
  have hedges' : ∀ change ∈ between.map Timed.event, change.IsEdge :=
    fun change hchange => hedges change (by simp [hchange])
  rw [hbegins] at hpath
  have hreconnecting : source = .reconnecting := by
    obtain ⟨_, _, hedge⟩ := hedges later.event (by simp)
    rw [hretries, hsource] at hedge
    rcases hedge.source_of_establishing with hidle | hreconnecting
    · exact absurd hidle (hpath.target_ne_idle hedges' nofun)
    · exact hreconnecting
  rw [hreconnecting] at hpath
  obtain ⟨front, pause, rfl, hpause, hfront⟩ := exists_pause hpath hedges' hbetween (.inl rfl)
  refine ⟨pause, ?_, ?_⟩
  · rw [List.filter_append, List.filter_eq_nil_iff.mpr (by simpa using hfront)]
    simp [hpause]
  · have hfollows := h.follows (first ++ earlier :: front ++ [pause]) later last
      (by simpa using hpassed)
    exact hfollows.rested pause List.getLast?_concat hpause hretries

/-- Whatever happens to a connection, by an ideal clock it keeps its times. -/
theorem ofConfig_keepsTime (parent : ComponentPath) (config : ConnectionConfig)
    (framePath : FramePath)
    (h : IsPunctual calls finish { connection := .ofConfig parent config framePath } moments) :
    KeepsTime calls config finish
      (afterAll { connection := .ofConfig parent config framePath } moments) := by
  have hcoherent := Connection.ofConfig_coherent parent config framePath
  obtain ⟨hregular, hwaits⟩ := (regular_ofConfig calls parent config framePath).afterAll h
  have hreported := passed_afterAll { connection := .ofConfig parent config framePath } moments
  constructor
  case follows => exact hregular.follows
  case inTime => exact hregular.inTime hwaits
  case approaches_le =>
    intro hinterval approach start span
    exact approaches_le_of_apart hregular.apart hinterval approach start span
  case pauses =>
    intro first earlier between later last hpassed
    have hpath := Connection.history_isPath hcoherent (moments.map Timed.event)
    have hedges : ∀ change ∈ reported ((Connection.ofConfig parent config framePath).history
        (moments.map Timed.event)), change.IsEdge := by
      intro change hchange
      obtain ⟨step, hstep, hchange⟩ := List.mem_flatMap.mp hchange
      obtain ⟨earlier, later, hsteps⟩ := List.append_of_mem hstep
      exact ⟨earlier, step, Connection.history_edge hcoherent hsteps change hchange⟩
    rw [List.map_nil, List.nil_append] at hreported
    rw [← hreported] at hpath hedges
    exact hregular.pauses hpath hedges hpassed

/-- A client that gives up a call after three nanoseconds and tries again after two more. -/
def hastyConfig : ConnectionConfig where
  index := 0
  address := "peer:1935"
  role := .client
  direction := .input
  connectionTimeout := ⟨3⟩
  reconnectInterval := ⟨2⟩
  reconnect := .unlimited
  pingInterval := ⟨60000000000⟩
  bufferSize := 3000
  amfVersion := none
  listenMode := .persistent
  codec := .raw

/-- Its first call comes to nothing, and the others come through. -/
def secondCall (attempt : Nat) : Attempt Unit := if attempt = 1 then .hangs else .ends 1 (.ok ())

/-- An act at a time, for a connection without siblings. -/
def alone (time : Nat) (act : Act) : Timed Occasion :=
  ⟨time, { act, fanOut := { filter := {}, sinks := [] } }⟩

def calledTwice : List (Timed Occasion) :=
  [alone 0 (.run .relay false), alone 3 (.poll false .timedOut), alone 5 (.poll false .rested),
    alone 6 (.poll false (.dialled (.ok ())))]

theorem ofConfig_keepsTime_calledTwice :
    let begun : Timeline := { connection := .ofConfig .root hastyConfig .publish }
    begun.IsPunctual secondCall 10 calledTwice ∧
      KeepsTime secondCall hastyConfig 10 (begun.afterAll calledTwice) ∧
      (begun.afterAll calledTwice).passed.map (fun entry => (entry.time, entry.event.target)) =
        [(0, .establishing), (3, .reconnecting), (5, .establishing), (6, .active)] := by
  intro begun
  have hpunctual : begun.IsPunctual secondCall 10 calledTwice := by
    refine ⟨⟨⟨by decide, by decide⟩, ?_⟩, ⟨⟨by decide, by decide⟩, ?_⟩,
      ⟨⟨by decide, by decide⟩, ?_⟩, ⟨⟨by decide, by decide⟩, ?_⟩, ⟨by decide, by decide⟩⟩
    all_goals
      intro signal hact htimed
      cases hact
    all_goals rfl
  exact ⟨hpunctual, ofConfig_keepsTime .root hastyConfig .publish hpunctual, by decide⟩

end Timeline

end LiveRelay
