import LiveRelay.Proofs.Relay.Deeds

/-! # What a deed of a relay is for one connection

For a connection in the tree a deed is an act of its own, or nothing at all
(`Deed.connection_cases`). What the connection shows of it can be told from everything else
that comes of the deed, because no other part of the tree has its path.
-/

namespace LiveRelay

/-- What an occurrence shows of the connection `id`, when this is its path. -/
def Occurrence.effect? (id : ConnectionId) (path : ComponentPath) : Occurrence → Option Effect
  | event ⟨source, kind⟩ => if source = path then some (.emit kind) else none
  | request actor asked => if actor = id then some (.request asked) else none
  | _ => none

/-- How a connection shows an effect to the outside. -/
def Effect.occurrence (id : ConnectionId) (path : ComponentPath) : Effect → Occurrence
  | emit kind => .event ⟨path, kind⟩
  | request asked => .request id asked

theorem Turn.occurrences_eq (turn : Turn) (id : ConnectionId) :
    turn.occurrences id = turn.effects.map (Effect.occurrence id turn.connection.path) := by
  refine List.map_congr_left fun effect _ => ?_
  cases effect <;> rfl

/-- What is seen of a connection in all of this, in order. -/
def effectsOf (id : ConnectionId) (path : ComponentPath) (occurrences : List Occurrence) :
    List Effect := occurrences.filterMap (Occurrence.effect? id path)

section EffectsOf

variable (id : ConnectionId) (path : ComponentPath)

@[simp] theorem effectsOf_append (first second : List Occurrence) :
    effectsOf id path (first ++ second) = effectsOf id path first ++ effectsOf id path second :=
  List.filterMap_append

theorem effectsOf_notes {occurrences : List Occurrence}
    (h : ∀ occurrence ∈ occurrences, occurrence.isNote = true) :
    effectsOf id path occurrences = [] := by
  rw [effectsOf, List.filterMap_eq_nil_iff]
  intro occurrence hoccurrence
  have hnote := h occurrence hoccurrence
  cases occurrence with
  | event => cases hnote
  | request => cases hnote
  | record => rfl
  | deadline => rfl

/-- Everything that a connection shows is seen. -/
theorem effectsOf_map (effects : List Effect) :
    effectsOf id path (effects.map (Effect.occurrence id path)) = effects := by
  rw [effectsOf, List.filterMap_map]
  refine (List.filterMap_congr ?_).trans List.filterMap_some
  intro effect _
  cases effect <;> simp [Occurrence.effect?, Effect.occurrence]

theorem effectsOf_event {event : Event} (h : event.path ≠ path) :
    effectsOf id path [.event event] = [] := by
  simp [effectsOf, Occurrence.effect?, h]

theorem effectsOf_other {actor : ConnectionId} {turn : Turn} (hactor : actor ≠ id)
    (hpath : turn.connection.path ≠ path) : effectsOf id path (turn.occurrences actor) = [] := by
  rw [effectsOf, Turn.occurrences_eq, List.filterMap_map, List.filterMap_eq_nil_iff]
  intro effect _
  cases effect <;> simp [Occurrence.effect?, Effect.occurrence, hactor, hpath]

end EffectsOf

namespace Relay

/-- No two parts of the tree have the same path, and the endpoints in it are sound. -/
structure IsSound (relay : Relay) : Prop where
  hasOwnPaths : relay.HasOwnPaths
  endpoint : ∀ {server endpoint value}, relay.endpoint? server endpoint = some value →
    value.IsSound

theorem IsSound.after {before after : Relay} (h : before.IsSound) (hstep : TreeStep before after) :
    after.IsSound where
  hasOwnPaths := by
    intro first second path hfirst hsecond
    rw [hstep.componentPath?] at hfirst hsecond
    exact h.hasOwnPaths first second path hfirst hsecond
  endpoint := by
    intro server endpoint later hlater
    obtain ⟨value, hvalue, rfl | ⟨act, rfl⟩⟩ := hstep.endpoint hlater
    · exact h.endpoint hvalue
    · exact Endpoint.act_isSound (h.endpoint hvalue) act

theorem ofConfig_isSound (config : Config) : (ofConfig config).IsSound where
  hasOwnPaths := ofConfig_hasOwnPaths config
  endpoint := by
    intro server endpoint value hvalue
    rw [endpoint?_ofConfig] at hvalue
    obtain ⟨settings, -, rfl⟩ := Option.map_eq_some_iff.mp hvalue
    exact Endpoint.ofConfig_isSound _ _ _

theorem IsSound.coherent {relay : Relay} (h : relay.IsSound) {id : ConnectionId}
    {connection : Connection} (hconnection : relay.connection? id = some connection) :
    connection.Coherent := by
  obtain ⟨endpoint, hendpoint, hget⟩ := Option.bind_eq_some_iff.mp hconnection
  exact (h.endpoint hendpoint).coherent connection (List.mem_of_getElem? hget)

theorem componentPath?_connection {relay : Relay} {id : ConnectionId} {connection : Connection}
    (h : relay.connection? id = some connection) :
    relay.componentPath? (.connection id) = some connection.path := congrArg (Option.map _) h

/-- What a relay lets a connection do in a move. -/
inductive Lets (relay : Relay) (id : ConnectionId) (connection : Connection) (after : Relay) :
    Move → Act → Prop
  | signals (signal : Signal) :
      Lets relay id connection after (.signal id signal)
        (.poll (relay.interrupts connection) signal)
  | closes {component : Component} (h : component.Covers id) :
      Lets relay id connection after (.close component) .close
  /-- A task begins to drive it. -/
  | begins {move : Move} {place : Nat} {token : Token}
      (htask : relay.tasks[place]? = some ⟨.connection id, token, .ready⟩)
      (hlife : connection.life = .unstarted)
      (hdriving : after.tasks[place]? = some ⟨.connection id, token, .driving⟩) :
      Lets relay id connection after move (.run token (relay.isCancelled token))

/-- What a connection does in a step of the relay, when this is the fan-out of its endpoint, and
what it shows of it. -/
structure Acts (relay : Relay) (id : ConnectionId) (connection : Connection) (fanOut : FanOut)
    (act : Act) (change : Change) : Prop where
  fanOut_eq : (relay.endpoint? id.server id.endpoint).map Endpoint.fanOut = some fanOut
  connection_eq : change.relay.connection? id = some (connection.act fanOut act).connection
  effects_eq : effectsOf id connection.path change.occurrences = (connection.act fanOut act).effects

/-- For a connection that does not act, nothing has happened. -/
structure Rests (id : ConnectionId) (connection : Connection) (change : Change) : Prop where
  connection_eq : change.relay.connection? id = some connection
  effects_eq : effectsOf id connection.path change.occurrences = []

namespace Deed

variable {relay : Relay} {move : Move} {change : Change}

theorem treeStep (h : Deed relay move change) : TreeStep relay change.relay := by
  cases h with
  | notes => exact .rests rfl
  | cancels token => exact .rests (servers_cancel _ _)
  | closesFanOut server endpoint => exact closeFanOut_treeStep _ _ _
  | signals => exact act_treeStep _ _ _
  | closes => exact act_treeStep _ _ _
  | runs => exact .rests rfl
  | settles => exact .rests rfl
  | begins => exact (act_treeStep _ _ _).setPhase _ _
  | opens => exact .rests rfl
  | ends => exact .rests rfl

/-- A token that has been cancelled stays so. -/
theorem isCancelled (h : Deed relay move change) {token : Token}
    (htoken : relay.isCancelled token = true) : change.relay.isCancelled token = true := by
  cases h with
  | notes => exact htoken
  | cancels other => simp [isCancelled_cancel, htoken]
  | closesFanOut => rwa [Relay.isCancelled, cancelled_closeFanOut]
  | signals => rwa [Relay.isCancelled, cancelled_act]
  | closes => rwa [Relay.isCancelled, cancelled_act]
  | runs => exact htoken
  | settles => exact htoken
  | @begins _ place id other =>
      have hact : (relay.act id (.run other (relay.isCancelled other))).relay.isCancelled token =
          true := by
        rwa [Relay.isCancelled, cancelled_act]
      exact hact
  | opens => exact htoken
  | ends => exact htoken

variable {id : ConnectionId} {connection : Connection}

/-- An act is one of this connection, or nothing has happened to it. -/
theorem act_cases (hpaths : relay.HasOwnPaths)
    (hconnection : relay.connection? id = some connection) (actor : ConnectionId) (act : Act) :
    (actor = id ∧ ∃ fanOut, relay.Acts id connection fanOut act (relay.act actor act)) ∨
      actor ≠ id ∧ Rests id connection (relay.act actor act) := by
  by_cases hactor : actor = id
  · subst hactor
    obtain ⟨fanOut, hfanOut, hoccurrences, hlater, -⟩ := act_of_some hconnection act
    refine .inl ⟨rfl, fanOut, hfanOut, hlater, ?_⟩
    rw [hoccurrences, Turn.occurrences_eq, (connection.act_passes fanOut act).path_eq]
    exact effectsOf_map _ _ _
  · refine .inr ⟨hactor, (connection?_act_of_ne (Ne.symm hactor) relay act).trans hconnection, ?_⟩
    cases hother : relay.connection? actor with
    | none =>
        rw [act_of_none hother]
        rfl
    | some other =>
        obtain ⟨fanOut, -, hoccurrences, -, -⟩ := act_of_some hother act
        rw [hoccurrences]
        refine effectsOf_other _ _ hactor ?_
        rw [(other.act_passes fanOut act).path_eq]
        intro hpath
        have hsame := hpaths (.connection actor) (.connection id) connection.path
          ((componentPath?_connection hother).trans (congrArg some hpath))
          (componentPath?_connection hconnection)
        exact hactor (Component.connection.inj hsame)

/-- The events of groups are not those of a connection. -/
theorem effectsOf_group (hpaths : relay.HasOwnPaths)
    (hconnection : relay.connection? id = some connection) {group : Group} {path : ComponentPath}
    (hpath : relay.pathOf? group = some path) (kind : EventKind) :
    effectsOf id connection.path [.event ⟨path, kind⟩] = [] := by
  refine effectsOf_event _ _ fun heq => ?_
  have hsame := hpaths (.group group) (.connection id) connection.path
    (hpath.trans (congrArg some heq)) (componentPath?_connection hconnection)
  cases hsame

/-- For a connection a deed is an act of its own that the relay lets it do, or nothing. -/
theorem connection_cases (h : Deed relay move change) (hpaths : relay.HasOwnPaths)
    (hconnection : relay.connection? id = some connection) :
    (∃ fanOut act, relay.Lets id connection change.relay move act ∧
      relay.Acts id connection fanOut act change) ∨ Rests id connection change := by
  cases h with
  | notes hnotes => exact .inr ⟨hconnection, effectsOf_notes _ _ hnotes⟩
  | cancels token =>
      exact .inr ⟨(connection?_congr (servers_cancel _ _) id).trans hconnection, rfl⟩
  | closesFanOut server endpoint =>
      exact .inr ⟨(connection?_closeFanOut _ _ _ id).trans hconnection, rfl⟩
  | @signals actor other hother signal =>
      rcases act_cases hpaths hconnection actor (.poll (relay.interrupts other) signal) with
        ⟨rfl, fanOut, hacts⟩ | ⟨-, hrests⟩
      · rw [hconnection] at hother
        obtain rfl := Option.some.inj hother
        exact .inl ⟨fanOut, _, .signals signal, hacts⟩
      · exact .inr hrests
  | @closes component actor hcovers =>
      rcases act_cases hpaths hconnection actor .close with ⟨rfl, fanOut, hacts⟩ | ⟨-, hrests⟩
      · exact .inl ⟨fanOut, _, .closes hcovers, hacts⟩
      · exact .inr hrests
  | runs component token => exact .inr ⟨hconnection, rfl⟩
  | settles => exact .inr ⟨hconnection, rfl⟩
  | @begins _ place actor token other htask hother hlife =>
      rcases act_cases hpaths hconnection actor (.run token (relay.isCancelled token)) with
        ⟨rfl, fanOut, hacts⟩ | ⟨-, hrests⟩
      · rw [hconnection] at hother
        obtain rfl := Option.some.inj hother
        have hdriving : (relay.begun place actor token).relay.tasks[place]? =
            some ⟨.connection actor, token, .driving⟩ := by
          rw [begun, getElem?_setPhase_self, tasks_act, htask]
          rfl
        exact .inl ⟨fanOut, _, .begins htask hlife hdriving,
          ⟨hacts.fanOut_eq, hacts.connection_eq, hacts.effects_eq⟩⟩
      · exact .inr ⟨hrests.connection_eq, hrests.effects_eq⟩
  | opens htask hpath => exact .inr ⟨hconnection, effectsOf_group hpaths hconnection hpath _⟩
  | @ends _ place group =>
      refine .inr ⟨hconnection, ?_⟩
      cases hpath : relay.pathOf? group with
      | some path =>
          simp only [ended, hpath]
          exact effectsOf_group hpaths hconnection hpath _
      | none =>
          simp only [ended, hpath]
          have hroot : relay.pathOf? .relay = some Relay.path := rfl
          exact effectsOf_group hpaths hconnection hroot _

/-- A connection after a deed is the one before it, or has acted. -/
theorem connection_after (h : Deed relay move change) (hpaths : relay.HasOwnPaths)
    {later : Connection} (hlater : change.relay.connection? id = some later) :
    ∃ connection, relay.connection? id = some connection ∧
      ((∃ fanOut act, relay.Lets id connection change.relay move act ∧
          relay.Acts id connection fanOut act change ∧
          (connection.act fanOut act).connection = later) ∨
        Rests id connection change ∧ connection = later) := by
  obtain ⟨connection, hconnection, -⟩ := h.treeStep.connection_before hlater
  refine ⟨connection, hconnection, ?_⟩
  rcases h.connection_cases hpaths hconnection with ⟨fanOut, act, hlets, hacts⟩ | hrests
  · exact .inl ⟨fanOut, act, hlets, hacts,
      Option.some.inj (hacts.connection_eq.symm.trans hlater)⟩
  · exact .inr ⟨hrests, Option.some.inj (hrests.connection_eq.symm.trans hlater)⟩

end Deed

/-- What every deed of a sound relay keeps is kept by a move. -/
theorem IsSound.step_induction {motive : Relay → List Occurrence → Prop} {relay : Relay}
    {move : Move} (hsound : relay.IsSound) (hbegin : motive relay [])
    (hdeed : ∀ {before : Relay} {earlier : List Occurrence} {next : Change},
      before.IsSound → motive before earlier → Deed before move next →
        motive next.relay (earlier ++ next.occurrences)) :
    motive (relay.step move).relay (relay.step move).occurrences := by
  have hall : (relay.step move).relay.IsSound ∧ _ := Relay.step_induction
    (motive := fun relay seen => relay.IsSound ∧ motive relay seen) ⟨hsound, hbegin⟩
    fun ⟨hsound, hbefore⟩ h => ⟨hsound.after h.treeStep, hdeed hsound hbefore h⟩
  exact hall.2

theorem IsSound.stepAll_induction {motive : Relay → List Occurrence → Prop} {relay : Relay}
    {moves : List Move} (hsound : relay.IsSound) (hbegin : motive relay [])
    (hdeed : ∀ {move : Move} {before : Relay} {earlier : List Occurrence} {next : Change},
      before.IsSound → motive before earlier → Deed before move next →
        motive next.relay (earlier ++ next.occurrences)) :
    motive (relay.stepAll moves).relay (relay.stepAll moves).occurrences := by
  have hall : (relay.stepAll moves).relay.IsSound ∧ _ := Relay.stepAll_induction
    (motive := fun relay seen => relay.IsSound ∧ motive relay seen) ⟨hsound, hbegin⟩
    fun _ ⟨hsound, hbefore⟩ h => ⟨hsound.after h.treeStep, hdeed hsound hbefore h⟩
  exact hall.2

theorem step_isSound {relay : Relay} (h : relay.IsSound) (move : Move) :
    (relay.step move).relay.IsSound :=
  step_induction (motive := fun relay _ => relay.IsSound) h
    fun hsound hdeed => hsound.after hdeed.treeStep

theorem stepAll_isSound {relay : Relay} (h : relay.IsSound) (moves : List Move) :
    (relay.stepAll moves).relay.IsSound :=
  stepAll_induction (motive := fun relay _ => relay.IsSound) h
    fun _ hsound hdeed => hsound.after hdeed.treeStep

end Relay

end LiveRelay
