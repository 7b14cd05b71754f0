import LiveRelay.Proofs.Relay.Settled

/-! # What is reported of the parts of a relay

Every part of the tree reports its beginning and its end under its own path. What has been
reported of a group shows how far its task has come, and what has been reported of a
connection how far its life has. Between the two reports of a part fall those of all that is
below it, and the last report of a run is that of the relay.
-/

namespace LiveRelay

/-- The event that an effect reports. -/
def Effect.kind? : Effect → Option EventKind
  | emit kind => some kind
  | request _ => none

/-- What an occurrence reports of the part at a path. -/
def Occurrence.kind? (path : ComponentPath) : Occurrence → Option EventKind
  | event ⟨source, kind⟩ => if source = path then some kind else none
  | _ => none

/-- What has been reported of the part at a path, in order. -/
def kindsOf (path : ComponentPath) (seen : List Occurrence) : List EventKind :=
  seen.filterMap (Occurrence.kind? path)

/-- What has been reported of the beginning and the end of the part at a path. -/
def marksOf (path : ComponentPath) (seen : List Occurrence) : List Mark :=
  (kindsOf path seen).filterMap EventKind.mark?

section MarksOf

variable (path : ComponentPath)

@[simp] theorem kindsOf_append (first second : List Occurrence) :
    kindsOf path (first ++ second) = kindsOf path first ++ kindsOf path second :=
  List.filterMap_append

@[simp] theorem marksOf_append (first second : List Occurrence) :
    marksOf path (first ++ second) = marksOf path first ++ marksOf path second := by
  rw [marksOf, kindsOf_append, List.filterMap_append]
  rfl

theorem marksOf_of_kindsOf {seen : List Occurrence} (h : kindsOf path seen = []) :
    marksOf path seen = [] := by
  rw [marksOf, h]
  rfl

theorem kindsOf_event_self (kind : EventKind) : kindsOf path [.event ⟨path, kind⟩] = [kind] := by
  simp [kindsOf, Occurrence.kind?]

theorem kindsOf_event_of_ne {other : ComponentPath} (h : other ≠ path) (kind : EventKind) :
    kindsOf path [.event ⟨other, kind⟩] = [] := by
  simp [kindsOf, Occurrence.kind?, h]

theorem marksOf_event_self (kind : EventKind) :
    marksOf path [.event ⟨path, kind⟩] = kind.mark?.toList := by
  rw [marksOf, kindsOf_event_self]
  cases hmark : kind.mark? <;> simp [hmark]

theorem kindsOf_notes {occurrences : List Occurrence}
    (h : ∀ occurrence ∈ occurrences, occurrence.isNote = true) : kindsOf path occurrences = [] := by
  rw [kindsOf, List.filterMap_eq_nil_iff]
  intro occurrence hoccurrence
  have hnote := h occurrence hoccurrence
  cases occurrence with
  | event => cases hnote
  | request => cases hnote
  | record => rfl
  | deadline => rfl

/-- What a connection reports is part of what is seen of it. -/
theorem kindsOf_eq (id : ConnectionId) (seen : List Occurrence) :
    kindsOf path seen = (effectsOf id path seen).filterMap Effect.kind? := by
  rw [kindsOf, effectsOf, List.filterMap_filterMap]
  refine List.filterMap_congr fun occurrence _ => ?_
  cases occurrence with
  | event event =>
      simp only [Occurrence.kind?, Occurrence.effect?]
      split_ifs <;> rfl
  | request actor asked =>
      simp only [Occurrence.kind?, Occurrence.effect?]
      split_ifs <;> rfl
  | record => rfl
  | deadline => rfl

theorem kindsOf_turn {turn : Turn} (h : turn.connection.path ≠ path) (id : ConnectionId) :
    kindsOf path (turn.occurrences id) = [] := by
  rw [kindsOf, Turn.occurrences_eq, List.filterMap_map, List.filterMap_eq_nil_iff]
  intro effect _
  cases effect <;> simp [Occurrence.kind?, Effect.occurrence, h]

theorem filter_mark? (effects : List Effect) :
    (effects.filterMap Effect.kind?).filterMap EventKind.mark? =
      (effects.filterMap Effect.mark?).filter (· ≠ .released) := by
  induction effects with
  | nil => rfl
  | cons effect effects ih =>
      cases effect with
      | emit kind =>
          cases kind <;>
            simp [List.filterMap_cons, Effect.kind?, Effect.mark?, EventKind.mark?, ih]
      | request asked =>
          cases asked <;> simp [List.filterMap_cons, Effect.kind?, Effect.mark?, ih]

theorem marksOf_turn (turn : Turn) (id : ConnectionId) :
    marksOf turn.connection.path (turn.occurrences id) = turn.marks.filter (· ≠ .released) := by
  rw [marksOf, kindsOf_eq _ id, Turn.occurrences_eq, effectsOf_map]
  exact filter_mark? _

end MarksOf

/-- What has been reported of a connection that has come this far. One that was closed before
it was run has reported nothing. -/
def Life.Shows : Life → List Mark → Prop
  | unstarted, marks => marks = []
  | running _ _, marks => marks = [.started]
  | ended _, marks => marks = [] ∨ marks = [.started, .stopped]

theorem Connection.Passage.shows {before after : Life} {act : Act} {marks earlier : List Mark}
    (h : Connection.Passage before act marks after) (hshows : before.Shows earlier) :
    after.Shows (earlier ++ marks.filter (· ≠ .released)) := by
  cases h with
  | rests => simpa using hshows
  | begins => simp [Life.Shows] at hshows ⊢; exact hshows
  | beginsInVain => simp [Life.Shows] at hshows ⊢; exact hshows
  | closes => simp [Life.Shows] at hshows ⊢; exact .inl hshows
  | goesOn =>
      rw [List.filter_nil, List.append_nil]
      exact hshows
  | @ends run =>
      have hend : run.endMarks.filter (· ≠ .released) = [.stopped] := by
        unfold Run.endMarks
        cases run.listening <;> rfl
      rw [hend]
      exact .inr (congrArg (· ++ [Mark.stopped]) hshows)

/-- What has been reported of a group whose task has begun and come to this phase. -/
def TaskPhase.marks : TaskPhase → List Mark
  | ready => []
  | done _ => [.started, .stopped]
  | _ => [.started]

namespace Relay

variable {relay : Relay} {move : Move} {change : Change}

/-! ## Connections -/

/-- What has been reported of every connection shows how far it has come. -/
def ConnectionsShown (relay : Relay) (seen : List Occurrence) : Prop :=
  ∀ id connection, relay.connection? id = some connection →
    connection.life.Shows (marksOf connection.path seen)

theorem Acts.marks_eq {id : ConnectionId} {connection : Connection} {fanOut : FanOut} {act : Act}
    (h : relay.Acts id connection fanOut act change) :
    marksOf connection.path change.occurrences =
      (connection.act fanOut act).marks.filter (· ≠ .released) := by
  rw [marksOf, kindsOf_eq _ id, h.effects_eq]
  exact filter_mark? _

theorem Rests.kinds_eq {id : ConnectionId} {connection : Connection}
    (h : Rests id connection change) : kindsOf connection.path change.occurrences = [] := by
  rw [kindsOf_eq _ id, h.effects_eq]
  rfl

theorem Deed.connectionsShown (h : Deed relay move change) (hpaths : relay.HasOwnPaths)
    {seen : List Occurrence} (hshown : relay.ConnectionsShown seen) :
    change.relay.ConnectionsShown (seen ++ change.occurrences) := by
  intro id later hlater
  obtain ⟨connection, hconnection, hcases⟩ := h.connection_after hpaths hlater
  have hshows := hshown id connection hconnection
  rw [marksOf_append]
  rcases hcases with ⟨fanOut, act, -, hacts, rfl⟩ | ⟨hrests, rfl⟩
  · have hpasses := connection.act_passes fanOut act
    rw [hpasses.path_eq, hacts.marks_eq]
    exact hpasses.passage.shows hshows
  · rw [marksOf_of_kindsOf _ hrests.kinds_eq, List.append_nil]
    exact hshows

/-! ## Groups -/

/-- What has been reported of the group shows how far its task has come. -/
inductive GroupShown (relay : Relay) (group : Group) : List Mark → Prop
  | unbegun (h : ∀ (place : Nat) (task : Task), relay.tasks[place]? = some task →
      task.component = .group group → ¬task.HasBegun) : GroupShown relay group []
  | begun {place : Nat} {task : Task} (htask : relay.tasks[place]? = some task)
      (hgroup : task.component = .group group) (hbegun : task.HasBegun) :
      GroupShown relay group task.phase.marks

section GroupShown

variable {group : Group} {marks : List Mark} {place : Nat} {task : Task}

theorem GroupShown.congr (h : relay.GroupShown group marks) {after : Relay}
    (htasks : after.tasks = relay.tasks) : after.GroupShown group marks := by
  cases h with
  | unbegun hnone => exact .unbegun (htasks.symm ▸ hnone)
  | begun htask hgroup hbegun => exact .begun (htasks.symm ▸ htask) hgroup hbegun

/-- The phase of a task changes, and nothing can be told from it. -/
theorem GroupShown.setPhase (h : relay.GroupShown group marks)
    (htask : relay.tasks[place]? = some task) {phase : TaskPhase}
    (hsame : task.component = .group group →
      ({ task with phase := phase }.HasBegun ↔ task.HasBegun) ∧
        (task.HasBegun → phase.marks = task.phase.marks)) :
    (relay.setPhase place phase).GroupShown group marks := by
  cases h with
  | unbegun hnone =>
      refine .unbegun fun other later hlater hgroup => ?_
      by_cases hother : other = place
      · subst hother
        rw [getElem?_setPhase_self, htask] at hlater
        obtain rfl := Option.some.inj hlater
        rw [(hsame hgroup).1]
        exact hnone _ _ htask hgroup
      · rw [getElem?_setPhase_of_ne _ hother] at hlater
        exact hnone _ _ hlater hgroup
  | begun hbefore hgroup hbegun =>
      rcases getElem?_setPhase_cases phase htask hbefore with hkept | ⟨rfl, hlater⟩
      · exact .begun hkept hgroup hbegun
      · obtain ⟨hiff, hmarks⟩ := hsame hgroup
        rw [← hmarks hbegun]
        exact .begun hlater hgroup (hiff.mpr hbegun)

/-- The tasks that are added have not begun. -/
theorem GroupShown.grow (h : relay.GroupShown group marks) {after : Relay}
    (hkept : ∀ (other : Nat) (before : Task), relay.tasks[other]? = some before →
      before.component = .group group → after.tasks[other]? = some before)
    (hcases : ∀ (other : Nat) (later : Task), after.tasks[other]? = some later →
      later.component = .group group → later.HasBegun → relay.tasks[other]? = some later) :
    after.GroupShown group marks := by
  cases h with
  | unbegun hnone =>
      refine .unbegun fun other later hlater hgroup hbegun => ?_
      exact hnone other later (hcases other later hlater hgroup hbegun) hgroup hbegun
  | begun htask hgroup hbegun => exact .begun (hkept _ _ htask hgroup) hgroup hbegun

theorem GroupShown.opened (h : relay.GroupShown group marks) (horder : relay.InOrder)
    {token : Token} (htask : relay.tasks[place]? = some ⟨.group group, token, .ready⟩)
    (hfirst : group = .relay → relay.hasRun = false) :
    (relay.opened place group token).GroupShown group (marks ++ [.started]) := by
  cases h with
  | unbegun =>
      refine .begun (getElem?_opened_self htask) rfl ?_
      cases group <;> trivial
  | begun hbefore hgroup hbegun =>
      exact absurd hbegun (horder.not_begun htask hfirst hbefore hgroup)

theorem GroupShown.ended (h : relay.GroupShown group marks) (horder : relay.InOrder)
    {token : Token} {failures : Nat} {phase : TaskPhase}
    (htask : relay.tasks[place]? = some ⟨.group group, token, .joining [] failures⟩)
    (hphase : relay.GoesOn ⟨.group group, token, .joining [] failures⟩ phase)
    (hdone : phase.isDone = true) :
    (relay.setPhase place phase).GroupShown group (marks ++ [.stopped]) := by
  have hbegun : (⟨.group group, token, .joining [] failures⟩ : Task).HasBegun := by
    cases group <;> trivial
  have hlater : (relay.setPhase place phase).tasks[place]? = some ⟨.group group, token, phase⟩ := by
    rw [getElem?_setPhase_self, htask]
    rfl
  have hbegun' := (hphase.hasBegun group rfl).mpr hbegun
  cases h with
  | unbegun hnone => exact absurd hbegun (hnone _ _ htask rfl)
  | begun hbefore hgroup hbefore' =>
      obtain rfl := horder.unique hbefore htask (fun _ => hbefore') (fun _ => hbegun) hgroup
      rw [htask] at hbefore
      obtain rfl := Option.some.inj hbefore
      cases phase with
      | done failure => exact .begun hlater rfl hbegun'
      | _ => cases hdone

end GroupShown

/-- What a connection does is reported under its own path. -/
theorem kindsOf_act {id : ConnectionId} {path : ComponentPath}
    (h : relay.componentPath? (.connection id) ≠ some path) (act : Act) :
    kindsOf path (relay.act id act).occurrences = [] := by
  cases hconnection : relay.connection? id with
  | none =>
      rw [act_of_none hconnection]
      rfl
  | some connection =>
      obtain ⟨fanOut, -, hoccurrences, -, -⟩ := act_of_some hconnection act
      rw [hoccurrences]
      refine kindsOf_turn _ ?_ id
      rw [(connection.act_passes fanOut act).path_eq]
      rintro rfl
      exact h (componentPath?_connection hconnection)

theorem Deed.groupShown (h : Deed relay move change) (hpaths : relay.HasOwnPaths)
    (horder : relay.InOrder) {group : Group} {path : ComponentPath}
    (hpath : relay.pathOf? group = some path) {seen : List Occurrence}
    (hshown : relay.GroupShown group (marksOf path seen)) :
    change.relay.GroupShown group (marksOf path (seen ++ change.occurrences)) := by
  have hquiet : kindsOf path change.occurrences = [] →
      change.relay.GroupShown group (marksOf path seen) →
      change.relay.GroupShown group (marksOf path (seen ++ change.occurrences)) := by
    intro hkinds hlater
    rwa [marksOf_append, marksOf_of_kindsOf _ hkinds, List.append_nil]
  have hact : ∀ id act, kindsOf path (relay.act id act).occurrences = [] := by
    refine fun id act => kindsOf_act (fun hsame => ?_) act
    cases hpaths (.connection id) (.group group) path hsame hpath
  have hother : ∀ {other : Group} {path' : ComponentPath}, relay.pathOf? other = some path' →
      other ≠ group → path' ≠ path := by
    rintro other path' hpath' hne rfl
    exact hne (Component.group.inj (hpaths (.group other) (.group group) path' hpath' hpath))
  cases h with
  | notes hnotes => exact hquiet (kindsOf_notes _ hnotes) hshown
  | cancels => exact hquiet rfl (hshown.congr (tasks_cancel _ _))
  | closesFanOut => exact hquiet rfl (hshown.congr (tasks_closeFanOut _ _ _))
  | signals => exact hquiet (hact _ _) (hshown.congr (tasks_act _ _ _))
  | closes => exact hquiet (hact _ _) (hshown.congr (tasks_act _ _ _))
  | runs component token =>
      refine hquiet rfl (hshown.grow ?_ ?_)
      · intro other before hbefore _
        simp only [spawn]
        rwa [List.getElem?_append_left (List.getElem?_eq_some_iff.mp hbefore).1]
      · intro other later hlater hgroup hbegun
        rcases Nat.lt_or_ge other relay.tasks.length with hlt | hnew
        · simp only [spawn] at hlater
          rwa [List.getElem?_append_left hlt] at hlater
        · have hready := (Deed.runs component token).ready_of_new hnew hlater
          exact absurd hready (Task.phase_ne_ready hbegun)
  | settles htask hsettles =>
      refine hquiet rfl (hshown.setPhase htask fun hgroup => ?_)
      have hgoes := hsettles.goesOn (horder.isPart htask)
      refine ⟨hgoes.hasBegun group hgroup, fun hbegun => ?_⟩
      cases hsettles with
      | refuses => cases hbegun
      | strays => exact absurd rfl (Task.phase_ne_ready hbegun)
      | skips => cases hgroup
      | joins => rfl
      | arrives => cases hgroup
  | @begins _ place id token _ htask =>
      have hacted := hshown.congr (tasks_act relay id (.run token (relay.isCancelled token)))
      refine hquiet (hact _ _) (hacted.setPhase (by rwa [tasks_act]) ?_)
      intro hgroup
      cases hgroup
  | @opens _ place other token path' htask hpath' hfirst =>
      by_cases hsame : other = group
      · subst hsame
        obtain rfl := Option.some.inj (hpath'.symm.trans hpath)
        rw [marksOf_append, marksOf_event_self]
        exact hshown.opened horder htask hfirst
      · refine hquiet (kindsOf_event_of_ne _ (hother hpath' hsame) _) (hshown.grow ?_ ?_)
        · intro place' before hbefore hgroup
          refine (getElem?_opened_old ?_ (List.getElem?_eq_some_iff.mp hbefore).1).trans hbefore
          rintro rfl
          rw [htask] at hbefore
          obtain rfl := Option.some.inj hbefore
          exact hsame (Component.group.inj hgroup)
        · intro place' later hlater hgroup hbegun
          rcases getElem?_opened_cases htask hlater with ⟨-, rfl⟩ | ⟨-, hold⟩ | ⟨_, -, -, hready⟩
          · exact absurd (Component.group.inj hgroup) hsame
          · exact hold
          · exact absurd hready (Task.phase_ne_ready hbegun)
  | @ends _ place other token failures htask =>
      have hgoes := goesOn_ends relay other token failures ((relay.pathOf? other).getD Relay.path)
      by_cases hsame : other = group
      · subst hsame
        simp only [Relay.ended, hpath, Option.getD_some] at hgoes ⊢
        rw [marksOf_append, marksOf_event_self]
        exact hshown.ended horder htask hgoes rfl
      · obtain ⟨path', hpath'⟩ := Option.isSome_iff_exists.mp (horder.isPart htask)
        have hpath' : relay.pathOf? other = some path' := hpath'
        refine hquiet ?_ (hshown.setPhase htask fun hgroup => ?_)
        · simp only [Relay.ended, hpath', Option.getD_some]
          exact kindsOf_event_of_ne _ (hother hpath' hsame) _
        · exact absurd (Component.group.inj hgroup) hsame

end Relay

end LiveRelay
