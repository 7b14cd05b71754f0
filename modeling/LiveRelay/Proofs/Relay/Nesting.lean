import LiveRelay.Proofs.Relay.Chronicle

/-! # Who reports when

A deed reports something of one part of the tree at most, and never of a part whose run is
over (`Deed.reports`). The beginning and the end of a run are reported while the task of the
part is not done, and so between those of the group above (`stepAll_isOrderly`).
-/

namespace LiveRelay

/-- Nothing is reported in this. -/
def IsSilent (occurrences : List Occurrence) : Prop :=
  ∀ event, Occurrence.event event ∉ occurrences

theorem isSilent_iff {occurrences : List Occurrence} :
    IsSilent occurrences ↔ ∀ path, kindsOf path occurrences = [] := by
  constructor
  · intro h path
    rw [kindsOf, List.filterMap_eq_nil_iff]
    intro occurrence hoccurrence
    cases occurrence with
    | event event => exact absurd hoccurrence (h event)
    | _ => rfl
  · rintro h ⟨path, kind⟩ hevent
    have hnone := List.filterMap_eq_nil_iff.mp (h path) _ hevent
    simp [Occurrence.kind?] at hnone

theorem IsSilent.append {first second : List Occurrence} (hfirst : IsSilent first)
    (hsecond : IsSilent second) : IsSilent (first ++ second) := by
  rw [isSilent_iff] at hfirst hsecond ⊢
  intro path
  rw [kindsOf_append, hfirst, hsecond]
  rfl

theorem isSilent_nil : IsSilent [] := fun _ => List.not_mem_nil

namespace Relay

variable {relay : Relay} {move : Move} {change : Change}

/-! ## Of whom a deed reports -/

/-- All that is reported in this is of one component, and its run is not over. Its run begins
and ends while it has a task that is not done. -/
structure Reports (relay : Relay) (component : Component) (path : ComponentPath)
    (occurrences : List Occurrence) : Prop where
  path_eq : relay.componentPath? component = some path
  not_over : ¬relay.IsOver component
  others : ∀ other, other ≠ path → kindsOf other occurrences = []
  task : marksOf path occurrences ≠ [] → ∃ (place : Nat) (task : Task),
    relay.tasks[place]? = some task ∧ task.component = component ∧ task.phase.isDone = false

theorem IsSettled.act_reports (hsettled : relay.IsSettled) (id : ConnectionId) (act : Act)
    (htask : ∀ connection, relay.connection? id = some connection →
      (∃ fanOut, (connection.act fanOut act).marks ≠ []) → ∃ (place : Nat) (task : Task),
        relay.tasks[place]? = some task ∧ task.component = .connection id ∧
          task.phase.isDone = false) :
    IsSilent (relay.act id act).occurrences ∨
      ∃ component path, relay.Reports component path (relay.act id act).occurrences := by
  cases hconnection : relay.connection? id with
  | none =>
      rw [act_of_none hconnection]
      exact .inl isSilent_nil
  | some connection =>
      have hpath := componentPath?_connection hconnection
      obtain ⟨fanOut, -, hoccurrences, -, -⟩ := act_of_some hconnection act
      by_cases hover : relay.IsOver (.connection id)
      · obtain ⟨place, task, hget, hcomponent, hdone, -⟩ := hover
        obtain ⟨failure, hlife⟩ := hsettled.ended hget hcomponent hdone hconnection
        rw [hoccurrences, Turn.occurrences_eq, Connection.effects_of_ended hlife]
        exact .inl isSilent_nil
      · refine .inr ⟨.connection id, connection.path, hpath, hover, ?_, ?_⟩
        · intro other hother
          refine kindsOf_act (fun hsame => hother ?_) act
          exact Option.some.inj (hsame.symm.trans hpath)
        · intro hmarks
          refine htask connection hconnection ⟨fanOut, fun hnone => hmarks ?_⟩
          rw [hoccurrences, ← (connection.act_passes fanOut act).path_eq, marksOf_turn, hnone]
          rfl

/-- What a deed reports is of one component whose run is not over. -/
theorem Deed.reports (h : Deed relay move change) (hdriven : relay.IsDriven)
    (horder : relay.InOrder) (hsettled : relay.IsSettled) :
    IsSilent change.occurrences ∨
      ∃ component path, relay.Reports component path change.occurrences := by
  cases h with
  | notes hnotes => exact .inl (isSilent_iff.mpr fun path => kindsOf_notes path hnotes)
  | cancels => exact .inl isSilent_nil
  | closesFanOut => exact .inl isSilent_nil
  | runs => exact .inl isSilent_nil
  | settles => exact .inl isSilent_nil
  | @signals id connection hconnection signal =>
      refine hsettled.act_reports id _ ?_
      rintro other hother ⟨fanOut, hmarks⟩
      obtain ⟨run, await, hlife⟩ := (other.act_passes fanOut _).passage.running hmarks
      obtain ⟨place, htask⟩ := hdriven id other run await hother hlife
      exact ⟨place, _, htask, rfl, rfl⟩
  | @closes component id =>
      refine hsettled.act_reports id _ ?_
      rintro other hother ⟨fanOut, hmarks⟩
      exact absurd (other.act_passes fanOut .close).passage.of_close hmarks
  | @begins _ place id token connection htask =>
      exact hsettled.act_reports id _ fun _ _ _ => ⟨place, _, htask, rfl, rfl⟩
  | @opens _ place group token path htask hpath hfirst =>
      refine .inr ⟨.group group, path, hpath, ?_, ?_, ?_⟩
      · rintro ⟨other, another, hother, hgroup, -, hbegun⟩
        exact horder.not_begun htask hfirst hother hgroup hbegun
      · exact fun other hother => kindsOf_event_of_ne _ hother.symm _
      · exact fun _ => ⟨place, _, htask, rfl, rfl⟩
  | @ends _ place group token failures htask hstopped =>
      obtain ⟨path, hpath⟩ := Option.isSome_iff_exists.mp (horder.isPart htask)
      have hpath : relay.pathOf? group = some path := hpath
      simp only [Relay.ended, hpath, Option.getD_some]
      refine .inr ⟨.group group, path, hpath, ?_, ?_, ?_⟩
      · intro hover
        cases horder.done_of_isOver hover htask rfl fun _ => by cases group <;> trivial
      · exact fun other hother => kindsOf_event_of_ne _ hother.symm _
      · exact fun _ => ⟨place, _, htask, rfl, rfl⟩

/-! ## When the relay has returned -/

theorem Deed.hasReturned (h : Deed relay move change) (hreturned : relay.HasReturned) :
    change.relay.HasReturned := by
  obtain ⟨place, token, htask⟩ := hreturned
  rcases h.task htask with hsame | ⟨phase, hadvances, -⟩
  · exact ⟨place, token, hsame⟩
  · cases hadvances with
    | settles hsettles => cases hsettles

/-- Nothing more is reported when the run of the relay is done. -/
theorem Deed.isSilent (h : Deed relay move change) (hdriven : relay.IsDriven)
    (horder : relay.InOrder) (hsettled : relay.IsSettled) (hreturned : relay.HasReturned) :
    IsSilent change.occurrences := by
  rcases h.reports hdriven horder hsettled with hsilent | ⟨component, path, hreports⟩
  · exact hsilent
  · have hpart : (relay.componentPath? component).isSome := by
      rw [hreports.path_eq]
      rfl
    exact absurd (horder.isOver hreturned hpart) hreports.not_over

/-- The run of the relay is done when it has reported so. -/
theorem Deed.returns (h : Deed relay move change) (hreturned : change.relay.HasReturned) :
    relay.HasReturned ∨ ∃ failure, change.occurrences = [.event ⟨path, .stopped failure⟩] := by
  obtain ⟨place, token, hlater⟩ := hreturned
  rcases h.task_before hlater nofun with
    hsame | ⟨⟨component, token', phase⟩, htask, hadvances, hwas⟩
  · exact .inl ⟨place, token, hsame⟩
  · obtain ⟨rfl, rfl, -⟩ := Task.mk.inj hwas
    generalize hphase : TaskPhase.done none = later at hadvances
    cases hadvances with
    | settles hsettles =>
        cases hsettles with
        | refuses => cases hphase
        | strays hpath => cases hpath
        | joins => cases hphase
    | opens => cases hphase
    | ends _ hshows => exact .inr ⟨_, hshows⟩

/-- The report of the relay that its run is over is the last that there is. -/
def EndsWithRelay (relay : Relay) (seen : List Occurrence) : Prop :=
  relay.HasReturned → ∃ before failure after,
    seen = before ++ .event ⟨path, .stopped failure⟩ :: after ∧ IsSilent after

theorem Deed.endsWithRelay (h : Deed relay move change) (hdriven : relay.IsDriven)
    (horder : relay.InOrder) (hsettled : relay.IsSettled) {seen : List Occurrence}
    (hends : relay.EndsWithRelay seen) :
    change.relay.EndsWithRelay (seen ++ change.occurrences) := by
  intro hreturned
  by_cases hearlier : relay.HasReturned
  · obtain ⟨before, failure, after, rfl, hsilent⟩ := hends hearlier
    refine ⟨before, failure, after ++ change.occurrences, ?_, ?_⟩
    · rw [List.append_assoc, List.cons_append]
    · exact hsilent.append (h.isSilent hdriven horder hsettled hearlier)
  · rcases h.returns hreturned with hbefore | ⟨failure, hoccurrences⟩
    · exact absurd hbefore hearlier
    · exact ⟨seen, failure, [], by rw [hoccurrences], isSilent_nil⟩

/-! ## What lies between the beginning and the end of a group -/

theorem GroupShown.marks_eq {group : Group} {marks : List Mark}
    (h : relay.GroupShown group marks) (horder : relay.InOrder) {place : Nat} {task : Task}
    (htask : relay.tasks[place]? = some task) (hgroup : task.component = .group group)
    (hbegun : task.HasBegun) : marks = task.phase.marks := by
  cases h with
  | unbegun hnone => exact absurd hbegun (hnone _ _ htask hgroup)
  | begun hother hgroup' hbegun' =>
      obtain rfl := horder.unique hother htask (fun _ => hbegun') (fun _ => hbegun)
        (hgroup'.trans hgroup.symm)
      rw [htask] at hother
      obtain rfl := Option.some.inj hother
      rfl

/-- A group waits for a part of which the task is not done. -/
theorem InOrder.parent_joins (h : relay.InOrder) {place : Nat} {task : Task} {group : Group}
    (htask : relay.tasks[place]? = some task) (hdone : task.phase.isDone = false)
    (hparent : task.component.parent? = some group) :
    ∃ (other : Nat) (above : Task), relay.tasks[other]? = some above ∧
      above.component = .group group ∧ above.HasBegun ∧ above.phase.marks = [.started] := by
  obtain ⟨other, above, habove, hgroup, hbegun⟩ := h.parent htask hparent
  refine ⟨other, above, habove, hgroup, hbegun, ?_⟩
  obtain ⟨place', below, hbelow, hcomponent, hjoined⟩ :=
    h.children habove hgroup hbegun hparent (h.isPart htask)
  have hnotRelay : task.component ≠ .group .relay := by
    intro hrelay
    rw [hrelay] at hparent
    cases hparent
  obtain rfl := h.unique hbelow htask
    (fun hrelay => absurd (hcomponent.symm.trans hrelay) hnotRelay)
    (fun hrelay => absurd hrelay hnotRelay) hcomponent
  rw [htask] at hbelow
  obtain rfl := Option.some.inj hbelow
  have hfits := h.fits habove
  obtain ⟨component, token, phase⟩ := above
  obtain rfl : component = .group group := hgroup
  cases phase with
  | ready => exact absurd rfl (Task.phase_ne_ready hbegun)
  | joining => rfl
  | driving => cases group <;> cases hfits
  | done failure =>
      rcases hjoined with hjoined | hwaits
      · rw [hdone] at hjoined
        cases hjoined
      · cases hwaits

/-- The beginning and the end of a part are reported while the group above it runs. -/
def Nested (relay : Relay) (seen : List Occurrence) : Prop :=
  ∀ component group path above, component.parent? = some group →
    relay.componentPath? component = some path → relay.pathOf? group = some above →
    ∀ kind before after, kind.mark?.isSome → seen = before ++ .event ⟨path, kind⟩ :: after →
      marksOf above before = [.started]

/-- What has been reported of every group shows how far its task has come. -/
def GroupsShown (relay : Relay) (seen : List Occurrence) : Prop :=
  ∀ group path, relay.pathOf? group = some path → relay.GroupShown group (marksOf path seen)

/-- A connection without a run has no listener that could have an address. -/
def IsTidy (relay : Relay) : Prop :=
  ∀ id connection, relay.connection? id = some connection → connection.IsTidy

theorem Deed.isTidy (h : Deed relay move change) (hpaths : relay.HasOwnPaths)
    (htidy : relay.IsTidy) : change.relay.IsTidy := by
  intro id later hlater
  obtain ⟨connection, hconnection, hcases⟩ := h.connection_after hpaths hlater
  have hbefore := htidy id connection hconnection
  rcases hcases with ⟨fanOut, act, -, -, rfl⟩ | ⟨-, rfl⟩
  · exact (connection.act_passes fanOut act).isTidy hbefore
  · exact hbefore

theorem ofConfig_isTidy (config : Config) : (ofConfig config).IsTidy := by
  intro id connection hconnection _
  obtain ⟨settings, framePath, above, -, -, rfl⟩ := connection?_ofConfig hconnection
  rfl

/-- What a relay has done so far, and what has been reported of it. -/
structure IsOrderly (relay : Relay) (seen : List Occurrence) : Prop where
  sound : relay.IsSound
  driven : relay.IsDriven
  order : relay.InOrder
  settled : relay.IsSettled
  tidy : relay.IsTidy
  connections : relay.ConnectionsShown seen
  groups : relay.GroupsShown seen
  nested : relay.Nested seen
  ends : relay.EndsWithRelay seen

theorem Deed.nested (h : Deed relay move change) {seen : List Occurrence}
    (horderly : relay.IsOrderly seen) : change.relay.Nested (seen ++ change.occurrences) := by
  have hparts := h.treeStep.componentPath?
  intro component group path above hparent hpath habove kind before after hmark hseen
  rw [hparts] at hpath
  have habove : relay.componentPath? (.group group) = some above :=
    (hparts (.group group)).symm.trans habove
  have hne : above ≠ path := by
    rintro rfl
    exact parent_ne hparent (horderly.sound.hasOwnPaths _ _ _ hpath habove)
  -- What the deed itself reports comes while the group above waits for the part.
  have hnew : ∀ middle, change.occurrences = middle ++ .event ⟨path, kind⟩ :: after →
      marksOf above (seen ++ middle) = [.started] := by
    intro middle hoccurrences
    have hmarks : marksOf path change.occurrences ≠ [] := by
      intro hnone
      rw [hoccurrences, ← List.singleton_append, marksOf_append, marksOf_append,
        marksOf_event_self] at hnone
      obtain ⟨mark, hmark⟩ := Option.isSome_iff_exists.mp hmark
      simp [hmark] at hnone
    rcases h.reports horderly.driven horderly.order horderly.settled with
      hsilent | ⟨component', path', hreports⟩
    · exact absurd (marksOf_of_kindsOf _ (isSilent_iff.mp hsilent path)) hmarks
    · obtain rfl : path = path' := by
        by_contra hother
        exact hmarks (marksOf_of_kindsOf _ (hreports.others path hother))
      obtain rfl := horderly.sound.hasOwnPaths _ _ _ hreports.path_eq hpath
      obtain ⟨place, task, htask, rfl, hdone⟩ := hreports.task hmarks
      obtain ⟨other, task', htask', hgroup, hbegun, hstarted⟩ :=
        horderly.order.parent_joins htask hdone hparent
      have hseen : marksOf above seen = [.started] :=
        ((horderly.groups group above habove).marks_eq horderly.order htask' hgroup hbegun).trans
          hstarted
      have hnothing := hreports.others above hne
      rw [hoccurrences, kindsOf_append, List.append_eq_nil_iff] at hnothing
      rw [marksOf_append, hseen, marksOf_of_kindsOf _ hnothing.1]
      rfl
  rcases List.append_eq_append_iff.mp hseen with ⟨middle, rfl, hoccurrences⟩ |
      ⟨middle, hearlier, hlater⟩
  · exact hnew middle hoccurrences
  · cases middle with
    | nil =>
        rw [List.append_nil] at hearlier
        rw [← hearlier, ← List.append_nil seen]
        exact hnew [] hlater.symm
    | cons first middle =>
        obtain ⟨rfl, -⟩ := List.cons_eq_cons.mp hlater
        exact horderly.nested component group path above hparent hpath habove kind before middle
          hmark hearlier

theorem Deed.isOrderly (h : Deed relay move change) (hmove : move.RunsRelayOnly)
    {seen : List Occurrence} (horderly : relay.IsOrderly seen) :
    change.relay.IsOrderly (seen ++ change.occurrences) where
  sound := horderly.sound.after h.treeStep
  driven := h.isDriven horderly.sound.hasOwnPaths horderly.driven
  order := h.inOrder hmove horderly.order
  settled := h.isSettled horderly.sound horderly.driven horderly.order horderly.settled
  tidy := h.isTidy horderly.sound.hasOwnPaths horderly.tidy
  connections := h.connectionsShown horderly.sound.hasOwnPaths horderly.connections
  groups := by
    intro group path hpath
    have hbefore : relay.pathOf? group = some path :=
      (h.treeStep.componentPath? (.group group)).symm.trans hpath
    exact h.groupShown horderly.sound.hasOwnPaths horderly.order hbefore
      (horderly.groups group path hbefore)
  nested := h.nested horderly
  ends := h.endsWithRelay horderly.driven horderly.order horderly.settled horderly.ends

theorem ofConfig_isOrderly (config : Config) : (ofConfig config).IsOrderly [] where
  sound := ofConfig_isSound config
  driven := stepAll_isDriven config []
  order := by constructor <;> simp [ofConfig]
  settled := by constructor <;> simp [ofConfig]
  tidy := ofConfig_isTidy config
  connections := by
    intro id connection hconnection
    rw [life_ofConfig hconnection]
    rfl
  groups := fun _ _ _ => .unbegun (by simp [ofConfig])
  nested := by
    intro _ _ _ _ _ _ _ _ before _ _ hseen
    simp at hseen
  ends := by
    rintro ⟨place, token, htask⟩
    cases htask

/-- However a relay is run, it is orderly, as long as nothing in it is run by itself. -/
theorem stepAll_isOrderly (config : Config) {moves : List Move}
    (hmoves : ∀ move ∈ moves, move.RunsRelayOnly) :
    ((ofConfig config).stepAll moves).relay.IsOrderly
      ((ofConfig config).stepAll moves).occurrences :=
  stepAll_induction (motive := IsOrderly) (ofConfig_isOrderly config)
    fun hmove horderly hdeed => hdeed.isOrderly (hmoves _ hmove) horderly

end Relay

end LiveRelay
