import Mathlib.Algebra.BigOperators.Group.List.Defs
import LiveRelay.Proofs.Connection.Conduct
import LiveRelay.Proofs.Connection.Ending
import LiveRelay.Proofs.Connection.Lifecycle
import LiveRelay.Proofs.Connection.Sink

/-! # The reports of dropped frames

A sink looks at what its queue has given up when it takes a frame and when it leaves its link, and
reports what is new since it looked last (`act_tells`). So its reports go on from each other, and
when it has left a link everything is reported that had been given up until then
(`IsSink.reportsDrops`). While it has no link it does not look (`IsSink.reportsUntilLeft`).
-/

namespace LiveRelay

/-- A report of frames that a queue has given up: since the last report, and in all. -/
structure DropReport where
  dropped : Nat
  total : Nat
  deriving DecidableEq

def Effect.dropReport? : Effect → Option DropReport
  | .emit (.framesDropped dropped total) => some ⟨dropped, total⟩
  | _ => none

/-- The reports among these effects. -/
def dropReports (effects : List Effect) : List DropReport := effects.filterMap Effect.dropReport?

/-- The reports of these steps. -/
def dropReportsIn (steps : List Step) : List DropReport :=
  steps.flatMap fun step => dropReports step.turn.effects

/-- How many frames these reports are about. -/
def sumOfDrops (reports : List DropReport) : Nat := (reports.map (·.dropped)).sum

/-- What the last of the reports says in all. -/
def lastTotal (reports : List DropReport) : Nat := (reports.getLast?.map (·.total)).getD 0

/-- When so much has been reported before, each report goes on from the one before it. -/
def GoOn : (reported : Nat) → List DropReport → Prop
  | _, [] => True
  | reported, report :: reports =>
      1 ≤ report.dropped ∧ report.total = reported + report.dropped ∧ GoOn report.total reports

section GoOn

variable {reported : Nat} {first second : List DropReport}

@[simp] theorem dropReports_append (first second : List Effect) :
    dropReports (first ++ second) = dropReports first ++ dropReports second :=
  List.filterMap_append

@[simp] theorem dropReportsIn_append (first second : List Step) :
    dropReportsIn (first ++ second) = dropReportsIn first ++ dropReportsIn second :=
  List.flatMap_append

@[simp] theorem sumOfDrops_append (first second : List DropReport) :
    sumOfDrops (first ++ second) = sumOfDrops first + sumOfDrops second := by
  rw [sumOfDrops, List.map_append, List.sum_append]
  rfl

theorem goOn_append :
    GoOn reported (first ++ second) ↔
      GoOn reported first ∧ GoOn (reported + sumOfDrops first) second := by
  induction first generalizing reported with
  | nil => simp [GoOn, sumOfDrops]
  | cons report first ih =>
      rw [List.cons_append, GoOn, GoOn, ih]
      constructor
      · rintro ⟨hpos, htotal, hfirst, hsecond⟩
        refine ⟨⟨hpos, htotal, hfirst⟩, ?_⟩
        rw [htotal, Nat.add_assoc] at hsecond
        exact hsecond
      · rintro ⟨⟨hpos, htotal, hfirst⟩, hsecond⟩
        refine ⟨hpos, htotal, hfirst, ?_⟩
        rw [htotal, Nat.add_assoc]
        exact hsecond

/-- What is reported in all is the sum of what has been reported. -/
theorem GoOn.lastTotal_eq (h : GoOn 0 first) : lastTotal first = sumOfDrops first := by
  rcases List.eq_nil_or_concat first with rfl | ⟨before, last, rfl⟩
  · rfl
  · rw [List.concat_eq_append] at h ⊢
    obtain ⟨-, -, htotal, -⟩ := goOn_append.mp h
    rw [sumOfDrops_append, lastTotal, List.getLast?_concat]
    simpa [sumOfDrops] using htotal

theorem GoOn.le_of_mem (h : GoOn reported first) {report : DropReport} (hmem : report ∈ first) :
    1 ≤ report.dropped ∧ reported < report.total := by
  induction first generalizing reported with
  | nil => cases hmem
  | cons head rest ih =>
      obtain ⟨hpos, htotal, hrest⟩ := h
      rcases List.mem_cons.mp hmem with rfl | hmem
      · exact ⟨hpos, by omega⟩
      · obtain ⟨hdropped, hless⟩ := ih hrest hmem
        exact ⟨hdropped, by omega⟩

theorem GoOn.pairwise (h : GoOn reported first) :
    first.Pairwise fun earlier later => earlier.total < later.total := by
  induction first generalizing reported with
  | nil => exact .nil
  | cons head rest ih =>
      obtain ⟨-, -, hrest⟩ := h
      exact .cons (fun later hlater => (hrest.le_of_mem hlater).2) (ih hrest)

end GoOn

/-! ### One step -/

/-- What a sink reports when it looks: what is new since it looked last. -/
def newDrops (reported total : Nat) : List DropReport :=
  if reported < total then [⟨total - reported, total⟩] else []

theorem goOn_newDrops {reported total : Nat} (h : reported ≤ total) :
    GoOn reported (newDrops reported total) ∧
      reported + sumOfDrops (newDrops reported total) = total := by
  unfold newDrops
  split_ifs with hless
  · simp only [GoOn, sumOfDrops, List.map_cons, List.map_nil, List.sum_singleton, and_true]
    omega
  · simp only [GoOn, sumOfDrops, List.map_nil, List.sum_nil, true_and]
    omega

namespace Connection

/-- What a sink tells of its queue in a step: nothing, while no link ends, or what is new since it
looked last. -/
inductive Tells (connection : Connection) (sink : Nat) (turn : Turn) : Prop
  | nothing (hreports : dropReports turn.effects = [])
      (hreported : turn.connection.droppedReported = connection.droppedReported)
      (hlink : connection.life.link? = none ∨ turn.connection.life.link? ≠ none)
  /-- The report comes before any change of state. -/
  | looks {front back : List Effect} (hlinked : connection.life.link? ≠ none)
      (heffects : turn.effects = front ++ back)
      (hfront : ∀ effect ∈ front, effect.transition? = none)
      (hreports : dropReports front =
        newDrops connection.droppedReported (turn.fanOut.dropped sink))
      (hback : dropReports back = [])
      (hreported : turn.connection.droppedReported = turn.fanOut.dropped sink)

variable {connection : Connection} {fanOut : FanOut} {act : Act} {turn moved : Turn} {run : Run}
  {await : Await} {sink : Nat}

theorem dropReports_dropReport (hpath : connection.framePath = .deliver sink) (fanOut : FanOut) :
    dropReports ((connection.dropReport fanOut).map .emit) =
      newDrops connection.droppedReported (fanOut.dropped sink) := by
  unfold dropReport newDrops
  rw [hpath]
  simp only []
  split_ifs <;> rfl

theorem transition?_of_mem_dropReport {effect : Effect}
    (h : effect ∈ (connection.dropReport fanOut).map .emit) : effect.transition? = none := by
  obtain ⟨kind, hkind, rfl⟩ := List.mem_map.mp h
  obtain ⟨dropped, total, rfl⟩ := mem_dropReport hkind
  rfl

/-- A sink that leaves its link has looked before it does anything else. -/
theorem tells_of_leave {rest : List Effect} (hpath : connection.framePath = .deliver sink)
    (hlife : connection.life = .running run await)
    (hmoves : Turn.Moves { connection, fanOut } moved)
    (heffects : turn.effects = (moved.leave await).effects ++ rest)
    (hrest : dropReports rest = [])
    (hreported : turn.connection.droppedReported = (moved.leave await).connection.droppedReported)
    (hfanOut : turn.fanOut = moved.fanOut) : connection.Tells sink turn := by
  obtain ⟨stats, hconnection⟩ := hmoves.connection_eq
  have hmoved : moved.connection.framePath = .deliver sink := by rw [hconnection, hpath]
  rw [Turn.effects_leave, hmoves.effects_eq, parting] at heffects
  rw [Turn.connection_leave] at hreported
  cases hlink : await.hasLink with
  | false =>
      rw [hlink, if_neg Bool.false_ne_true] at heffects
      rw [hlink, if_neg Bool.false_ne_true, hconnection] at hreported
      refine .nothing ?_ hreported (.inl ?_)
      · rw [heffects]
        exact hrest
      · rw [hlife, Life.link?, hlink]
        rfl
  | true =>
      rw [hlink, if_pos rfl, List.nil_append, List.append_assoc] at heffects
      rw [hlink, if_pos rfl, reportedAfter, hmoved] at hreported
      have hlinked : connection.life.link? ≠ none := by simp [hlife, Life.link?, hlink]
      refine .looks hlinked heffects (fun effect => transition?_of_mem_dropReport) ?_ ?_ ?_
      · rw [dropReports_dropReport hmoved, hconnection, hfanOut]
      · rw [dropReports_append, hrest]
        rfl
      · rw [hreported, hfanOut]

theorem dropReports_ending (run : Run) (state : ConnectionState)
    (failure : Option ConnectionError) : dropReports (run.ending state failure) = [] := by
  unfold Run.ending
  cases run.listening <;> rfl

/-- A run that ends tells nothing more than what has been told before. -/
theorem tells_of_finish {held : Turn} {rest : List Effect} {cancelled : Bool}
    {failure : Option ConnectionError} (hpath : connection.framePath = .deliver sink)
    (hlife : connection.life = .running run await)
    (hmoves : Turn.Moves { connection, fanOut } moved)
    (heffects : held.effects = (moved.leave await).effects ++ rest)
    (hrest : dropReports rest = [])
    (hreported : held.connection.droppedReported = (moved.leave await).connection.droppedReported)
    (hfanOut : held.fanOut = moved.fanOut) :
    connection.Tells sink (held.finish run cancelled failure) := by
  have hfinish := held.effects_finish run cancelled failure
  rw [heffects, List.append_assoc, List.append_assoc] at hfinish
  refine tells_of_leave hpath hlife hmoves hfinish ?_ ?_ ?_
  · rw [dropReports_append, dropReports_append, hrest, dropReports_ending]
    cases cancelled <;> rfl
  · rw [Turn.connection_finish]
    exact hreported
  · rw [Turn.fanOut_finish]
    exact hfanOut

theorem act_tells (hpath : connection.framePath = .deliver sink) (fanOut : FanOut) (act : Act) :
    connection.Tells sink (connection.act fanOut act) := by
  have hconduct := connection.act_conducts fanOut act
  generalize connection.act fanOut act = turn at hconduct ⊢
  cases hconduct with
  | rests h asked => exact .nothing rfl rfl (em (connection.life.link? = none))
  | closes h => exact .nothing rfl rfl (.inl (by rw [h]; rfl))
  | begins h token => exact .nothing rfl rfl (.inl (by rw [h]; rfl))
  | beginsInVain h token =>
      refine .nothing ?_ (by simp) (.inl (by rw [h]; rfl))
      rw [Turn.effects_finish, dropReports_append, dropReports_ending]
      rfl
  | interrupted h signal =>
      exact tells_of_finish hpath h (Turn.Moves.refl { connection, fanOut })
        (List.append_nil _).symm rfl rfl (Turn.fanOut_leave _ _)
  | bound h address =>
      refine .nothing ?_ (by simp [Turn.connection_learn]) (.inl (by rw [h]; rfl))
      rw [Turn.effects_ask, Turn.effects_learn]
      cases address <;> rfl
  | @linked run await h signal hlinks moved hmoves =>
      obtain ⟨stats, hconnection⟩ := hmoves.connection_eq
      refine .nothing ?_ (by simp [hconnection]) (.inl ?_)
      · simp [hmoves.effects_eq, dropReports, Effect.dropReport?]
      · rw [h]
        rcases await.eq_of_links hlinks with rfl | rfl <;> rfl
  | proceeds h hlink hmoves hrequest hlink' =>
      obtain ⟨stats, hconnection⟩ := hmoves.connection_eq
      refine .nothing ?_ (by simp [hconnection]) (.inr ?_)
      · simp [hmoves.effects_eq, dropReports, Effect.dropReport?]
      · simp [Life.link?, hlink']
  | idles h => exact .nothing rfl rfl (.inr (by simp [h, Life.link?, Await.hasLink]))
  | @takes run codec h moved hmoves request await' hrequest hlink' =>
      obtain ⟨stats, hconnection⟩ := hmoves.connection_eq
      rw [Turn.reportDrops_eq] at hconnection
      have hasked : (moved.ask request run await').effects =
          (connection.dropReport moved.fanOut).map .emit ++ [.request request] := by
        rw [Turn.effects_ask, hmoves.effects_eq, Turn.reportDrops_eq, List.nil_append]
      have hlinked : connection.life.link? ≠ none := by simp [h, Life.link?, Await.hasLink]
      refine .looks hlinked hasked (fun effect => transition?_of_mem_dropReport) ?_ rfl ?_
      · exact dropReports_dropReport hpath moved.fanOut
      · rw [Turn.connection_ask, hconnection, reportedAfter, hpath]
        rfl
  | queueClosed h hclosed =>
      exact tells_of_finish hpath h (Turn.Moves.refl { connection, fanOut })
        (List.append_nil _).symm rfl rfl (Turn.fanOut_leave _ _)
  | singleShotOver h hsingle hends hmoves =>
      exact tells_of_finish hpath h hmoves (List.append_nil _).symm rfl rfl (Turn.fanOut_leave _ _)
  | pauses h hfailure hmoves hbudget =>
      exact tells_of_leave hpath h hmoves (List.append_assoc ..) rfl rfl (Turn.fanOut_leave _ _)
  | givesUp h hfailure hmoves hbudget =>
      exact tells_of_finish hpath h hmoves rfl rfl rfl (Turn.fanOut_leave _ _)
  | retried h => exact .nothing rfl rfl (.inl (by rw [h]; rfl))

/-- A sink does not make its queue give up anything. -/
theorem dropped_act (hpath : connection.framePath = .deliver sink)
    (hfits : ∀ await ∈ connection.life.link?, await.Fits (.deliver sink)) (fanOut : FanOut)
    (act : Act) : (connection.act fanOut act).fanOut.dropped sink = fanOut.dropped sink := by
  rcases taken_cases hpath hfits fanOut act with ⟨-, hfanOut⟩ | ⟨frame, -, hpop⟩
  · rw [hfanOut]
  · exact FanOut.dropped_pop hpop sink

/-- A change of state that leads out of the active state ends a link. -/
theorem Course.leaves {passed : List Transition} {life : Life}
    (h : connection.Course fanOut act passed life) {change : Transition} (hchange : change ∈ passed)
    (hsource : change.source = .active) :
    connection.life.state = .active ∧ life.state ≠ .active := by
  cases h with
  | nothing => cases hchange
  | busy => cases hchange
  | interrupted hlife =>
      rcases List.mem_cons.mp hchange with rfl | hlast
      · exact ⟨by rw [hlife]; exact hsource, nofun⟩
      · obtain rfl := List.mem_singleton.mp hlast
        cases hsource
  | failed hlife =>
      obtain rfl := List.mem_singleton.mp hchange
      exact ⟨by rw [hlife]; exact hsource, nofun⟩
  | exhausted hlife =>
      rcases List.mem_cons.mp hchange with rfl | hlast
      · exact ⟨by rw [hlife]; exact hsource, nofun⟩
      · obtain rfl := List.mem_singleton.mp hlast
        cases hsource
  | singleShotOver hlife hsingle hends => exact ⟨by rw [hlife]; exact hends.state_eq, nofun⟩
  | queueClosed hlife => exact ⟨by rw [hlife]; rfl, nofun⟩
  -- No other step finds a link up.
  | begun | begunInVain | closedUnstarted | linked | retried => grind

end Connection

theorem Life.link?_eq_none_iff {life : Life} : life.link? = none ↔ life.state ≠ .active := by
  cases life with
  | unstarted => simp [link?, state]
  | ended failure => simp [link?, state]
  | running run await => simp [link?, state, await.hasLink_eq]

/-! ### A history -/

/-- The queue gives up more and more while this happens, and `least` frames before. -/
def DropsGrow (sink : Nat) : (least : Nat) → List Occasion → Prop
  | _, [] => True
  | least, occasion :: occasions =>
      least ≤ occasion.fanOut.dropped sink ∧
        DropsGrow sink (occasion.fanOut.dropped sink) occasions

section DropsGrow

variable {sink least more : Nat} {first second : List Occasion}

theorem DropsGrow.mono (h : DropsGrow sink more first) (hle : least ≤ more) :
    DropsGrow sink least first := by
  cases first with
  | nil => trivial
  | cons occasion first => exact ⟨hle.trans h.1, h.2⟩

theorem DropsGrow.of_append (h : DropsGrow sink least (first ++ second)) :
    DropsGrow sink least first := by
  induction first generalizing least with
  | nil => trivial
  | cons occasion first ih => exact ⟨h.1, ih h.2⟩

end DropsGrow

/-- The link of a connection ends in the step. -/
def Step.leavesLink (step : Step) : Bool := step.isLinked && step.after.life.link?.isNone

/-- How many frames the queue of a sink had given up when the last link of the sink ended. -/
def droppedWhenLeft (sink : Nat) (steps : List Step) : Nat :=
  ((steps.filter Step.leavesLink).getLast?.map (·.fanOut.dropped sink)).getD 0

theorem droppedWhenLeft_append_singleton (sink : Nat) (steps : List Step) (step : Step) :
    droppedWhenLeft sink (steps ++ [step]) =
      if step.leavesLink then step.fanOut.dropped sink else droppedWhenLeft sink steps := by
  unfold droppedWhenLeft
  split_ifs with hleaves <;> simp [hleaves]

/-- What is reported in these steps of what the queue of a sink gives up. -/
structure ReportsDrops (sink : Nat) (steps : List Step) : Prop where
  dropped_pos : ∀ report ∈ dropReportsIn steps, 1 ≤ report.dropped
  increasing : (dropReportsIn steps).Pairwise fun earlier later => earlier.total < later.total
  total_eq : ∀ first report last, dropReportsIn steps = first ++ report :: last →
    report.total = lastTotal first + report.dropped
  /-- When a link has ended, all that has been given up is reported before the change of state. -/
  left_eq : ∀ earlier step later, steps = earlier ++ step :: later →
    ∀ front target attempt failure back,
      step.turn.effects = front ++ .emit (.transition .active target attempt failure) :: back →
        lastTotal (dropReportsIn earlier ++ dropReports front) = step.fanOut.dropped sink
  /-- There is such a change of state whenever a link has ended. -/
  left_shown : ∀ step ∈ steps, step.before.state = .active → step.after.state ≠ .active →
    ∃ target attempt failure,
      .emit (.transition .active target attempt failure) ∈ step.turn.effects

/-- What has been reported of what the queue of a sink gives up when the run of the sink stops.
Nothing looks at the queue after the last link: of what is given up from then on, by a sink that
never gets another link, there is no report. -/
structure ReportsUntilLeft (sink : Nat) (earlier : List Step) (step : Step) : Prop where
  sum_eq : sumOfDrops (dropReportsIn (earlier ++ [step])) = droppedWhenLeft sink (earlier ++ [step])
  sum_le : sumOfDrops (dropReportsIn (earlier ++ [step])) ≤ step.fanOut.dropped sink
  sum_eq_of_linked : step.isLinked = true →
    sumOfDrops (dropReportsIn (earlier ++ [step])) = step.fanOut.dropped sink

namespace Connection

variable {connection : Connection} {occasions : List Occasion} {sink : Nat} {step : Step}

/-- A connection that writes what it takes from this queue. -/
structure IsSink (connection : Connection) (sink : Nat) : Prop where
  coherent : connection.Coherent
  framePath_eq : connection.framePath = .deliver sink
  fits : ∀ await ∈ connection.life.link?, await.Fits (.deliver sink)

theorem IsSink.after (h : step.before.IsSink sink) : step.after.IsSink sink where
  coherent := step.after_coherent h.coherent
  framePath_eq := (step.after_framePath h.coherent).trans h.framePath_eq
  fits := by
    have hfits := fits_afterAll h.coherent (h.framePath_eq ▸ h.fits) [step.occasion]
    rw [h.framePath_eq] at hfits
    exact hfits

theorem IsSink.afterAll (h : connection.IsSink sink) (occasions : List Occasion) :
    (connection.afterAll occasions).IsSink sink :=
  afterAll_induction (motive := (·.IsSink sink)) h (fun _ => IsSink.after) occasions

theorem ofConfig_isSink (parent : ComponentPath) (config : ConnectionConfig) (sink : Nat) :
    (ofConfig parent config (.deliver sink)).IsSink sink :=
  ⟨ofConfig_coherent _ _ _, rfl, nofun⟩

/-- The reports of a step go on from those before it. -/
theorem IsSink.step_goesOn (h : step.before.IsSink sink)
    (hle : step.before.droppedReported ≤ step.fanOut.dropped sink) :
    GoOn step.before.droppedReported (dropReports step.turn.effects) ∧
      step.after.droppedReported =
        step.before.droppedReported + sumOfDrops (dropReports step.turn.effects) ∧
      step.after.droppedReported ≤ step.fanOut.dropped sink := by
  have hsame : step.turn.fanOut.dropped sink = step.fanOut.dropped sink :=
    dropped_act h.framePath_eq h.fits step.fanOut step.act
  cases step.before.act_tells h.framePath_eq step.fanOut step.act with
  | nothing hreports hreported =>
      have hreports : dropReports step.turn.effects = [] := hreports
      have hreported : step.after.droppedReported = step.before.droppedReported := hreported
      rw [hreports, hreported]
      exact ⟨trivial, rfl, hle⟩
  | looks hlinked heffects hfront hreports hback hreported =>
      have heffects : step.turn.effects = _ := heffects
      have hreported : step.after.droppedReported = step.turn.fanOut.dropped sink := hreported
      have hreports : dropReports _ =
          newDrops step.before.droppedReported (step.turn.fanOut.dropped sink) := hreports
      rw [hsame] at hreported hreports
      rw [heffects, dropReports_append, hback, List.append_nil, hreports, hreported]
      obtain ⟨hgoesOn, hsum⟩ := goOn_newDrops hle
      exact ⟨hgoesOn, hsum.symm, Nat.le_refl _⟩

/-- What is reported before the changes of state is reported before any of them. -/
theorem dropReports_of_split {first rest front back : List Effect} {effect : Effect}
    (hfirst : ∀ other ∈ first, other.transition? = none) (hrest : dropReports rest = [])
    (heffect : effect.transition? ≠ none) (h : first ++ rest = front ++ effect :: back) :
    dropReports front = dropReports first := by
  rcases List.append_eq_append_iff.mp h with ⟨middle, rfl, rfl⟩ | ⟨middle, rfl, hmiddle⟩
  · rw [dropReports_append, List.append_eq_nil_iff] at hrest
    rw [dropReports_append, hrest.1, List.append_nil]
  · cases middle with
    | nil => rw [List.append_nil]
    | cons other middle =>
        obtain ⟨rfl, -⟩ := List.cons_eq_cons.mp hmiddle
        exact absurd (hfirst effect (by simp)) heffect

/-- When a link has ended, the sink has looked at its queue before the change of state. -/
theorem IsSink.step_leaves (h : step.before.IsSink sink) {front back : List Effect}
    {target : ConnectionState} {attempt : Nat} {failure : Option ConnectionError}
    (heffects : step.turn.effects =
      front ++ .emit (.transition .active target attempt failure) :: back) :
    dropReports front = dropReports step.turn.effects ∧
      step.after.droppedReported = step.fanOut.dropped sink := by
  have hsame : step.turn.fanOut.dropped sink = step.fanOut.dropped sink :=
    dropped_act h.framePath_eq h.fits step.fanOut step.act
  have hchange : ⟨.active, target, attempt, failure⟩ ∈ step.transitions := by
    refine List.mem_filterMap.mpr ⟨.emit (.transition .active target attempt failure), ?_, rfl⟩
    rw [heffects]
    exact List.mem_append_right _ List.mem_cons_self
  obtain ⟨hbefore, hafter⟩ := (step.course h.coherent).leaves hchange rfl
  cases step.before.act_tells h.framePath_eq step.fanOut step.act with
  | nothing hreports hreported hlink =>
      rcases hlink with hbefore' | hafter'
      · exact absurd hbefore (Life.link?_eq_none_iff.mp hbefore')
      · exact absurd (Life.link?_eq_none_iff.mpr hafter) hafter'
  | @looks first rest hlinked hshown hfront hreports hback hreported =>
      refine ⟨?_, hreported.trans hsame⟩
      have hshown : step.turn.effects = first ++ rest := hshown
      have hfirst : dropReports front = dropReports first :=
        dropReports_of_split hfront hback (by simp [Effect.transition?])
          (hshown.symm.trans heffects)
      rw [hfirst, hshown, dropReports_append, hback, List.append_nil]

theorem shown_of_leaves (h : step.before.Coherent) (hbefore : step.before.state = .active)
    (hafter : step.after.state ≠ .active) :
    ∃ target attempt failure,
      .emit (.transition .active target attempt failure) ∈ step.turn.effects := by
  have hpath := (step.course h).isPath
  rw [← h, ← step.after_coherent h, hbefore] at hpath
  cases hchanges : step.transitions with
  | nil =>
      rw [hchanges] at hpath
      exact absurd hpath.symm hafter
  | cons change changes =>
      rw [hchanges] at hpath
      have hshown := step.turn.mem_effects_of_mem_transitions
        (hchanges ▸ List.mem_cons_self : change ∈ step.transitions)
      rw [hpath.1] at hshown
      exact ⟨change.target, change.attempt, change.failure, hshown⟩

theorem IsSink.history_goesOn (h : connection.IsSink sink)
    (hgrow : DropsGrow sink connection.droppedReported occasions) :
    GoOn connection.droppedReported (dropReportsIn (connection.history occasions)) ∧
      (connection.afterAll occasions).droppedReported = connection.droppedReported +
        sumOfDrops (dropReportsIn (connection.history occasions)) := by
  induction occasions generalizing connection with
  | nil => exact ⟨trivial, rfl⟩
  | cons occasion occasions ih =>
      let step : Step := ⟨connection, occasion⟩
      have hbefore : step.before.IsSink sink := h
      obtain ⟨hgoesOn, hreported, hle⟩ := hbefore.step_goesOn hgrow.1
      obtain ⟨hrest, hafter⟩ := ih hbefore.after (hgrow.2.mono hle)
      have hhistory : dropReportsIn (connection.history (occasion :: occasions)) =
          dropReports step.turn.effects ++ dropReportsIn (step.after.history occasions) := rfl
      rw [hhistory]
      refine ⟨goOn_append.mpr ⟨hgoesOn, ?_⟩, ?_⟩
      · rw [hreported] at hrest
        exact hrest
      · rw [sumOfDrops_append, ← Nat.add_assoc]
        exact hafter.trans (congrArg (· + _) hreported)

/-- A sink never remembers more than its queue has given up. -/
theorem IsSink.dropsGrow_afterAll (h : connection.IsSink sink) {first last : List Occasion}
    (hgrow : DropsGrow sink connection.droppedReported (first ++ last)) :
    DropsGrow sink (connection.afterAll first).droppedReported last := by
  induction first generalizing connection with
  | nil => exact hgrow
  | cons occasion first ih =>
      let step : Step := ⟨connection, occasion⟩
      have hbefore : step.before.IsSink sink := h
      obtain ⟨-, -, hle⟩ := hbefore.step_goesOn hgrow.1
      exact ih hbefore.after (hgrow.2.mono hle)

/-- What has been reported up to a step goes on from nothing, and is what the sink remembers. -/
theorem IsSink.upTo (h : connection.IsSink sink) (hnone : connection.droppedReported = 0)
    (hgrow : DropsGrow sink 0 occasions) {earlier later : List Step}
    (hsteps : connection.history occasions = earlier ++ step :: later) :
    GoOn 0 (dropReportsIn (earlier ++ [step])) ∧
      sumOfDrops (dropReportsIn (earlier ++ [step])) = step.after.droppedReported := by
  obtain ⟨first, last, rfl, hfirst, hafter⟩ := history_upTo hsteps
  obtain ⟨hgoesOn, hsum⟩ := h.history_goesOn (hnone.symm ▸ hgrow.of_append)
  rw [hnone, hfirst] at hgoesOn
  rw [hafter, hfirst, hnone, Nat.zero_add] at hsum
  exact ⟨hgoesOn, hsum.symm⟩

/-- The reports of a sink that has never looked at its queue before. -/
theorem IsSink.reportsDrops (h : connection.IsSink sink) (hnone : connection.droppedReported = 0)
    (hgrow : DropsGrow sink 0 occasions) : ReportsDrops sink (connection.history occasions) := by
  have hgoesOn := (h.history_goesOn (hnone.symm ▸ hgrow)).1
  rw [hnone] at hgoesOn
  constructor
  case dropped_pos => exact fun report hreport => (hgoesOn.le_of_mem hreport).1
  case increasing => exact hgoesOn.pairwise
  case total_eq =>
    intro first report last hreports
    rw [hreports] at hgoesOn
    obtain ⟨hfirst, -, htotal, -⟩ := goOn_append.mp hgoesOn
    rw [hfirst.lastTotal_eq, htotal, Nat.zero_add]
  case left_eq =>
    intro earlier step later hsteps front target attempt failure back heffects
    obtain ⟨first, -, -, -, hbefore⟩ := history_split hsteps
    have hsink : step.before.IsSink sink := hbefore ▸ h.afterAll first
    obtain ⟨hfront, hreported⟩ := hsink.step_leaves heffects
    obtain ⟨hupTo, hsum⟩ := h.upTo hnone hgrow hsteps
    have hreports : dropReportsIn (earlier ++ [step]) =
        dropReportsIn earlier ++ dropReports front := by
      rw [dropReportsIn_append, hfront]
      exact congrArg (_ ++ ·) (List.append_nil _)
    calc lastTotal (dropReportsIn earlier ++ dropReports front)
        = lastTotal (dropReportsIn (earlier ++ [step])) := by rw [hreports]
      _ = sumOfDrops (dropReportsIn (earlier ++ [step])) := hupTo.lastTotal_eq
      _ = step.after.droppedReported := hsum
      _ = step.fanOut.dropped sink := hreported
  case left_shown =>
    intro step hstep
    exact shown_of_leaves (before_coherent h.coherent hstep)

/-! ### The end of a run -/

theorem ended_of_stopped {failure : Option String}
    (h : .emit (.stopped failure) ∈ step.turn.effects) :
    ∃ failure, step.after.life = .ended failure := by
  have hmark : Mark.stopped ∈ step.turn.marks := List.mem_filterMap.mpr ⟨_, h, rfl⟩
  have hpassage : Passage step.before.life step.act step.turn.marks step.after.life :=
    (step.before.act_passes step.fanOut step.act).passage
  exact hpassage.ended_of_stopped hmark

/-- Without a link, a sink remembers what its queue had given up when the last one ended. -/
theorem IsSink.droppedReported_eq (h : connection.IsSink sink)
    (hnone : connection.droppedReported = 0) (occasions : List Occasion)
    (hidle : (connection.afterAll occasions).life.link? = none) :
    (connection.afterAll occasions).droppedReported =
      droppedWhenLeft sink (connection.history occasions) := by
  induction occasions using List.reverseRecOn with
  | nil => exact hnone
  | append_singleton first occasion ih =>
      let step : Step := ⟨connection.afterAll first, occasion⟩
      have hsink : step.before.IsSink sink := h.afterAll first
      rw [afterAll_append] at hidle ⊢
      rw [history_append]
      have hidle : step.after.life.link? = none := hidle
      refine Eq.trans ?_ (droppedWhenLeft_append_singleton sink _ step).symm
      have htells := step.before.act_tells hsink.framePath_eq step.fanOut step.act
      cases htells with
      | nothing hreports hreported hunlinked =>
          have hbefore : step.before.life.link? = none :=
            hunlinked.resolve_right (not_not_intro hidle)
          rw [Step.leavesLink, Step.isLinked_eq_false.mpr hbefore]
          exact hreported.trans (ih hbefore)
      | looks hlinked heffects hfront hreports hback hreported =>
          have hleaves : step.leavesLink = true := by
            rw [Step.leavesLink, hidle, Step.isLinked]
            simpa [Option.isSome_iff_ne_none] using hlinked
          rw [if_pos hleaves]
          exact hreported.trans (dropped_act hsink.framePath_eq hsink.fits step.fanOut step.act)

/-- When the run of a sink stops. -/
theorem IsSink.reportsUntilLeft (h : connection.IsSink sink)
    (hnone : connection.droppedReported = 0) (hgrow : DropsGrow sink 0 occasions)
    {earlier later : List Step} (hsteps : connection.history occasions = earlier ++ step :: later)
    {failure : Option String} (hstopped : .emit (.stopped failure) ∈ step.turn.effects) :
    ReportsUntilLeft sink earlier step := by
  obtain ⟨first, last, hoccasions, -, hbefore⟩ := history_split hsteps
  obtain ⟨upTo, -, -, hupTo, hafter⟩ := history_upTo hsteps
  have hsink : step.before.IsSink sink := hbefore ▸ h.afterAll first
  obtain ⟨-, hsum⟩ := h.upTo hnone hgrow hsteps
  obtain ⟨failure', hended⟩ := ended_of_stopped hstopped
  have hidle : step.after.life.link? = none := by rw [hended]; rfl
  have hsum_eq : sumOfDrops (dropReportsIn (earlier ++ [step])) =
      droppedWhenLeft sink (earlier ++ [step]) := by
    rw [hsum, ← hupTo, ← hafter]
    exact h.droppedReported_eq hnone upTo (hafter ▸ hidle)
  constructor
  case sum_eq => exact hsum_eq
  case sum_le =>
    rw [hoccasions] at hgrow
    obtain ⟨hle, -⟩ := h.dropsGrow_afterAll (hnone.symm ▸ hgrow)
    rw [← hbefore] at hle
    rw [hsum]
    exact (hsink.step_goesOn hle).2.2
  case sum_eq_of_linked =>
    intro hlinked
    have hleaves : step.leavesLink = true := by rw [Step.leavesLink, hlinked, hidle]; rfl
    rw [hsum_eq, droppedWhenLeft_append_singleton, if_pos hleaves]

end Connection

end LiveRelay
