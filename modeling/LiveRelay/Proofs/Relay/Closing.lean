import LiveRelay.Proofs.Endpoint.Shut
import LiveRelay.Proofs.Relay.Cancellation
import LiveRelay.Proofs.Relay.Locality
import LiveRelay.Proofs.Relay.Settled

/-! # Closing

A component is closed (`IsClosed`) when its fan-outs are and all its connections have been asked
to close. Closing brings this about, and where it holds already there is nothing left to do, so
that closing twice is closing once (`close_close`). All that is seen of closing is that
connections which have never run are closed now (`close_isClosure`).
-/

namespace LiveRelay

/-- A connection that has been asked to close is not changed by being asked again. -/
theorem Connection.close_of_asked {connection : Connection}
    (hasked : connection.closeRequested = true) (hlife : connection.life ≠ .unstarted)
    (fanOut : FanOut) : connection.close fanOut = { connection, fanOut } := by
  have hsame : { connection with closeRequested := true } = connection := by
    rw [← hasked]
  unfold Connection.close
  split
  next hunstarted => exact absurd hunstarted hlife
  next => rw [hsame]

/-- The part of a group with this number, if it has so many. -/
def Group.part : Group → Nat → Component
  | .relay, index => .group (.server index)
  | .server above, index => .group (.endpoint above index)
  | .endpoint above next, index => .connection ⟨above, next, index⟩

namespace Group

theorem parent?_part (group : Group) (index : Nat) : (group.part index).parent? = some group := by
  cases group <;> rfl

theorem part_injective (group : Group) : Function.Injective group.part := by
  intro first second hsame
  cases group <;> simpa [part] using hsame

end Group

namespace Relay

variable {relay : Relay} {component : Component} {id : ConnectionId} {server endpoint : Nat}

/-- Whether a connection, if there is such a connection, has been asked to close. It is no longer
one that has never run. -/
def HasAsked (relay : Relay) (id : ConnectionId) : Prop :=
  ∀ connection, relay.connection? id = some connection →
    connection.closeRequested = true ∧ connection.life ≠ .unstarted

/-- Whether everything has been done that closing a component does. -/
structure IsClosed (relay : Relay) (component : Component) : Prop where
  cancelled : component = .group .relay → relay.isCancelled .relay = true
  stopped : ∀ server endpoint, component.Holds server endpoint →
    relay.HasStopped (.endpoint server endpoint)
  asked : ∀ id, component.Covers id → relay.HasAsked id

/-! ## The parts of a group by number -/

theorem childrenOf_eq (relay : Relay) (group : Group) :
    relay.childrenOf group = (List.range (relay.sizeOf group)).map group.part := by
  cases group <;> rfl

/-- A group has a part with a number if and only if the number is small enough. -/
theorem lt_sizeOf_iff {group : Group} {index : Nat} :
    index < relay.sizeOf group ↔ (relay.componentPath? (group.part index)).isSome := by
  have hmem : group.part index ∈ relay.childrenOf group ↔ index < relay.sizeOf group := by
    rw [childrenOf_eq, List.mem_map_of_injective group.part_injective, List.mem_range]
  rw [← hmem, mem_childrenOf, group.parent?_part, eq_self, true_and]

/-! ## Closing what is closed -/

theorem setEndpoint_self {value : Endpoint} (h : relay.endpoint? server endpoint = some value) :
    relay.setEndpoint server endpoint value = relay := by
  obtain ⟨parent, hparent, hvalue⟩ := Option.bind_eq_some_iff.mp h
  obtain ⟨hlt, rfl⟩ := List.getElem?_eq_some_iff.mp hvalue
  have hservers : (relay.setEndpoint server endpoint parent.endpoints[endpoint]).servers =
      relay.servers := by
    apply List.ext_getElem?
    intro place
    rw [setEndpoint, List.getElem?_modify]
    split_ifs with hplace
    · subst hplace
      have hget : relay.servers[server]? = some parent := hparent
      rw [hget]
      exact congrArg (fun endpoints => some { parent with endpoints }) (List.set_getElem_self hlt)
    · exact Option.map_id'
  obtain ⟨servers, runTimeout, hasRun, cancelled, tasks⟩ := relay
  exact congrArg (Relay.mk · runTimeout hasRun cancelled tasks) hservers

theorem closeFanOut_of_hasStopped (h : relay.HasStopped (.endpoint server endpoint)) :
    relay.closeFanOut server endpoint = relay := by
  unfold closeFanOut
  split
  next => rfl
  next value hvalue =>
    rw [FanOut.close_of_closed (h value hvalue)]
    exact setEndpoint_self hvalue

theorem act_close_of_hasAsked (h : relay.HasAsked id) : relay.act id .close = ⟨relay, []⟩ := by
  cases hconnection : relay.connection? id with
  | none => exact act_of_none hconnection .close
  | some connection =>
      obtain ⟨value, hvalue, hget⟩ := Option.bind_eq_some_iff.mp hconnection
      obtain ⟨hasked, hlife⟩ := h connection hconnection
      obtain ⟨hlt, rfl⟩ := List.getElem?_eq_some_iff.mp hget
      simp only [Relay.act, stepConnection, hvalue, hget, Connection.act,
        Connection.close_of_asked hasked hlife, Endpoint.after, List.set_getElem_self,
        setEndpoint_self hvalue]
      rfl

theorem cancel_of_isCancelled {token : Token} (h : relay.isCancelled token = true) :
    relay.cancel token = relay := if_pos h

/-- Closing parts one after the other, none of which changes anything. -/
theorem closeEach_of_rests {close : Relay → Nat → Change}
    (h : ∀ index, close relay index = ⟨relay, []⟩) (count : Nat) :
    closeEach close count relay = ⟨relay, []⟩ := by
  unfold closeEach
  induction List.range count with
  | nil => rfl
  | cons index indices ih =>
      have hfirst : (Change.mk relay []).andThen (close · index) = ⟨relay, []⟩ := by
        rw [Change.andThen, h]
        rfl
      rw [List.foldl_cons, hfirst, ih]

theorem closeEndpoint_of_closed (hstopped : relay.HasStopped (.endpoint server endpoint))
    (hasked : ∀ index, relay.HasAsked ⟨server, endpoint, index⟩) :
    relay.closeEndpoint server endpoint = ⟨relay, []⟩ := by
  unfold closeEndpoint
  dsimp only
  rw [closeFanOut_of_hasStopped hstopped]
  exact closeEach_of_rests (fun index => act_close_of_hasAsked (hasked index)) _

theorem closeServer_of_closed (hstopped : ∀ endpoint, relay.HasStopped (.endpoint server endpoint))
    (hasked : ∀ endpoint index, relay.HasAsked ⟨server, endpoint, index⟩) :
    relay.closeServer server = ⟨relay, []⟩ :=
  closeEach_of_rests
    (fun endpoint => closeEndpoint_of_closed (hstopped endpoint) (hasked endpoint)) _

/-- Closing a component that is closed does nothing, and nothing is seen of it. -/
theorem close_of_isClosed (h : relay.IsClosed component) :
    relay.close component = ⟨relay, []⟩ := by
  cases component with
  | connection id => exact act_close_of_hasAsked (h.asked id rfl)
  | group group =>
      cases group with
      | relay =>
          rw [close, cancel_of_isCancelled (h.cancelled rfl)]
          apply closeEach_of_rests
          intro server
          apply closeServer_of_closed
          · exact fun endpoint => h.stopped server endpoint trivial
          · exact fun endpoint index => h.asked ⟨server, endpoint, index⟩ trivial
      | server server =>
          apply closeServer_of_closed
          · exact fun endpoint => h.stopped server endpoint rfl
          · exact fun endpoint index => h.asked ⟨server, endpoint, index⟩ rfl
      | endpoint server endpoint =>
          apply closeEndpoint_of_closed
          · exact h.stopped server endpoint ⟨rfl, rfl⟩
          · exact fun index => h.asked ⟨server, endpoint, index⟩ ⟨rfl, rfl⟩

/-! ## Closing closes -/

theorem hasStopped_closeFanOut (relay : Relay) (server endpoint : Nat) :
    (relay.closeFanOut server endpoint).HasStopped (.endpoint server endpoint) := by
  intro later hlater
  rw [endpoint?_closeFanOut] at hlater
  obtain ⟨value, hvalue, rfl⟩ := Option.map_eq_some_iff.mp hlater
  rw [if_pos ⟨rfl, rfl⟩, Endpoint.act, FanOut.close]
  split_ifs with hclosed
  · exact hclosed
  · rfl

theorem HasAsked.congr {later : Relay} (h : relay.HasAsked id)
    (hsame : later.connection? id = relay.connection? id) : later.HasAsked id := by
  intro connection hconnection
  exact h connection (hsame.symm.trans hconnection)

theorem hasAsked_act_close (relay : Relay) (id : ConnectionId) :
    (relay.act id .close).relay.HasAsked id := by
  intro later hlater
  obtain ⟨connection, hconnection, -⟩ := (act_treeStep relay id .close).connection_before hlater
  obtain ⟨fanOut, -, -, hafter, -⟩ := act_of_some hconnection .close
  obtain rfl := Option.some.inj (hafter.symm.trans hlater)
  unfold Connection.act Connection.close
  dsimp only
  split
  next => exact ⟨rfl, by simp [Turn.update]⟩
  next hlife => exact ⟨rfl, hlife⟩

theorem HasAsked.act_close (h : relay.HasAsked id) (other : ConnectionId) :
    (relay.act other .close).relay.HasAsked id := by
  by_cases hother : id = other
  · subst hother
    exact hasAsked_act_close relay id
  · exact h.congr (connection?_act_of_ne hother relay .close)

/-- What has been closed stays closed when anything is closed. -/
theorem IsClosed.close (h : relay.IsClosed component) (other : Component) :
    (relay.close other).relay.IsClosed component := by
  apply close_keeps (motive := fun later => later.IsClosed component)
  · intro _ later hlater
    have hdeed : Deed later (.close other) ⟨later.cancel .relay, []⟩ := .cancels .relay
    exact ⟨fun hrelay => hdeed.isCancelled (hlater.cancelled hrelay),
      fun server endpoint hholds => hdeed.hasStopped (hlater.stopped server endpoint hholds),
      fun id hcovers => (hlater.asked id hcovers).congr
        (connection?_congr (servers_cancel _ _) id)⟩
  · intro later server' endpoint' _ hlater
    have hdeed : Deed later (.close other) ⟨later.closeFanOut server' endpoint', []⟩ :=
      .closesFanOut server' endpoint'
    exact ⟨fun hrelay => hdeed.isCancelled (hlater.cancelled hrelay),
      fun server endpoint hholds => hdeed.hasStopped (hlater.stopped server endpoint hholds),
      fun id hcovers => (hlater.asked id hcovers).congr (connection?_closeFanOut _ _ _ id)⟩
  · intro later actor hcovers hlater
    have hdeed : Deed later (.close other) (later.act actor .close) := .closes hcovers
    exact ⟨fun hrelay => hdeed.isCancelled (hlater.cancelled hrelay),
      fun server endpoint hholds => hdeed.hasStopped (hlater.stopped server endpoint hholds),
      fun id hcovers => (hlater.asked id hcovers).act_close actor⟩
  · exact h

/-- Closing adds nothing to the tree and takes nothing away. -/
theorem componentPath?_close (relay : Relay) (component part : Component) :
    (relay.close component).relay.componentPath? part = relay.componentPath? part := by
  apply close_keeps
    (motive := fun later => later.componentPath? part = relay.componentPath? part)
  · intro _ later hlater
    exact (TreeStep.componentPath? (.rests (servers_cancel _ _)) part).trans hlater
  · intro later server endpoint _ hlater
    exact ((closeFanOut_treeStep later server endpoint).componentPath? part).trans hlater
  · intro later id _ hlater
    exact ((act_treeStep later id .close).componentPath? part).trans hlater
  · rfl

theorem closeEach_succ (close : Relay → Nat → Change) (count : Nat) (relay : Relay) :
    closeEach close (count + 1) relay =
      (closeEach close count relay).andThen (close · count) := by
  rw [closeEach, List.range_succ, List.foldl_append]
  rfl

/-- What closing each part brings about, and closing the others keeps, holds of them all. -/
theorem closeEach_reaches {close : Relay → Nat → Change} (reached : Nat → Relay → Prop)
    (hreaches : ∀ relay index, reached index (close relay index).relay)
    (hkeeps : ∀ relay index other, reached other relay → reached other (close relay index).relay)
    (count : Nat) (relay : Relay) :
    ∀ index < count, reached index (closeEach close count relay).relay := by
  induction count with
  | zero => exact fun index hindex => absurd hindex (Nat.not_lt_zero index)
  | succ count ih =>
      intro index hindex
      rw [closeEach_succ]
      rcases Nat.lt_succ_iff_lt_or_eq.mp hindex with hbefore | rfl
      · exact hkeeps _ count index (ih index hbefore)
      · exact hreaches _ index

/-- A part that a group does not have is closed. -/
theorem isClosed_endpoint_of_absent
    (h : relay.componentPath? (.group (.endpoint server endpoint)) = none) :
    relay.IsClosed (.group (.endpoint server endpoint)) := by
  have hnone : relay.endpoint? server endpoint = none := Option.map_eq_none_iff.mp h
  refine ⟨nofun, ?_, ?_⟩
  · rintro _ _ ⟨rfl, rfl⟩ value hvalue
    cases hnone.symm.trans hvalue
  · rintro ⟨_, _, index⟩ ⟨rfl, rfl⟩ connection hconnection
    rw [connection?, hnone] at hconnection
    cases hconnection

theorem isClosed_server (h : ∀ endpoint, relay.IsClosed (.group (.endpoint server endpoint))) :
    relay.IsClosed (.group (.server server)) := by
  refine ⟨nofun, ?_, ?_⟩
  · rintro _ endpoint rfl
    exact (h endpoint).stopped _ endpoint ⟨rfl, rfl⟩
  · rintro ⟨_, endpoint, index⟩ rfl
    exact (h endpoint).asked ⟨_, endpoint, index⟩ ⟨rfl, rfl⟩

theorem closeEndpoint_isClosed (relay : Relay) (server endpoint : Nat) :
    (relay.closeEndpoint server endpoint).relay.IsClosed (.group (.endpoint server endpoint)) := by
  let target : Component := .group (.endpoint server endpoint)
  refine ⟨nofun, ?_, ?_⟩
  · rintro server' endpoint' ⟨hserver, hendpoint⟩
    obtain ⟨rfl, rfl⟩ := And.intro hserver.symm hendpoint.symm
    apply closeEach_keeps (motive := fun later => later.HasStopped (.endpoint server endpoint))
    · intro later index hlater
      have hdeed : Deed later (.close target) (later.act ⟨server, endpoint, index⟩ .close) :=
        .closes ⟨rfl, rfl⟩
      exact hdeed.hasStopped hlater
    · exact hasStopped_closeFanOut relay server endpoint
  · rintro ⟨server', endpoint', index⟩ ⟨hserver, hendpoint⟩
    obtain ⟨rfl, rfl⟩ := And.intro hserver.symm hendpoint.symm
    by_cases hindex : index < relay.sizeOf (.endpoint server endpoint)
    · exact closeEach_reaches (fun index later => later.HasAsked ⟨server, endpoint, index⟩)
        (fun later index => hasAsked_act_close later ⟨server, endpoint, index⟩)
        (fun later index other hother => hother.act_close ⟨server, endpoint, index⟩) _ _ index
        hindex
    · intro connection hconnection
      have hpart : (relay.componentPath? (.connection ⟨server, endpoint, index⟩)).isSome := by
        rw [← componentPath?_close relay target]
        exact Option.isSome_map.trans (Option.isSome_of_eq_some hconnection)
      exact absurd (lt_sizeOf_iff.mpr hpart) hindex

theorem closeServer_isClosed (relay : Relay) (server : Nat) :
    (relay.closeServer server).relay.IsClosed (.group (.server server)) := by
  let target : Component := .group (.server server)
  apply isClosed_server
  intro endpoint
  by_cases hindex : endpoint < relay.sizeOf (.server server)
  · exact closeEach_reaches
      (fun endpoint later => later.IsClosed (.group (.endpoint server endpoint)))
      (fun later endpoint => closeEndpoint_isClosed later server endpoint)
      (fun later endpoint other hother => hother.close (.group (.endpoint server endpoint)))
      _ _ endpoint hindex
  · apply isClosed_endpoint_of_absent
    rw [← Option.not_isSome_iff_eq_none]
    intro hpart
    have hbefore : (relay.componentPath? (.group (.endpoint server endpoint))).isSome := by
      rw [← componentPath?_close relay target]
      exact hpart
    exact hindex (lt_sizeOf_iff.mpr hbefore)

/-- A component that is closed is closed then. -/
theorem close_isClosed (relay : Relay) (component : Component) :
    (relay.close component).relay.IsClosed component := by
  cases component with
  | connection id =>
      refine ⟨nofun, fun _ _ hholds => hholds.elim, ?_⟩
      rintro _ rfl
      exact hasAsked_act_close relay _
  | group group =>
      cases group with
      | server server => exact closeServer_isClosed relay server
      | endpoint server endpoint => exact closeEndpoint_isClosed relay server endpoint
      | relay =>
          have hserver : ∀ server,
              (relay.close (.group .relay)).relay.IsClosed (.group (.server server)) := by
            intro server
            by_cases hindex : server < relay.sizeOf .relay
            · exact closeEach_reaches
                (fun server later => later.IsClosed (.group (.server server)))
                (fun later server => closeServer_isClosed later server)
                (fun later server other hother => hother.close (.group (.server server)))
                _ _ server hindex
            · apply isClosed_server
              intro endpoint
              apply isClosed_endpoint_of_absent
              rw [componentPath?_close, ← Option.not_isSome_iff_eq_none]
              intro hpart
              have hparent : (Component.group (.endpoint server endpoint)).parent? =
                  some (.server server) := rfl
              have habove := parent_isPart hparent hpart
              exact hindex (lt_sizeOf_iff.mpr habove)
          refine ⟨fun _ => ?_, ?_, ?_⟩
          · apply closeEach_keeps (motive := fun later => later.isCancelled .relay = true)
            · intro later server hlater
              have hclosed : (later.step
                  (.close (.group (.server server)))).relay.isCancelled .relay = true :=
                step_induction (motive := fun later _ => later.isCancelled .relay = true) hlater
                  fun hbefore hdeed => hdeed.isCancelled hbefore
              exact hclosed
            · simp [isCancelled_cancel]
          · exact fun server endpoint _ => (hserver server).stopped server endpoint rfl
          · exact fun id _ => (hserver id.server).asked id rfl

/-- Closing a second time changes nothing, and nothing is seen of it. -/
theorem close_close (relay : Relay) (component : Component) :
    (relay.close component).relay.close component = ⟨(relay.close component).relay, []⟩ :=
  close_of_isClosed (relay.close_isClosed component)

/-! ## What is seen of closing -/

theorem closeEach_forall {close : Relay → Nat → Change} {holds : Occurrence → Prop}
    (h : ∀ relay index, ∀ occurrence ∈ (close relay index).occurrences, holds occurrence)
    (count : Nat) (relay : Relay) :
    ∀ occurrence ∈ (closeEach close count relay).occurrences, holds occurrence := by
  induction count with
  | zero => exact fun occurrence hmem => absurd hmem List.not_mem_nil
  | succ count ih =>
      rw [closeEach_succ]
      intro occurrence hmem
      rcases List.mem_append.mp hmem with hbefore | hlast
      · exact ih occurrence hbefore
      · exact h _ count occurrence hlast

/-- Whether something has gone from nowhere to closed, without ever having been up. -/
def IsClosure (occurrence : Occurrence) : Prop :=
  ∃ path source, occurrence = .event ⟨path, .transition source .closed 0 none⟩

theorem act_close_isClosure (relay : Relay) (id : ConnectionId) :
    ∀ occurrence ∈ (relay.act id .close).occurrences, IsClosure occurrence := by
  intro occurrence hmem
  cases hconnection : relay.connection? id with
  | none =>
      rw [act_of_none hconnection] at hmem
      cases hmem
  | some connection =>
      obtain ⟨fanOut, -, hoccurrences, -, -⟩ := act_of_some hconnection .close
      rw [hoccurrences, Turn.occurrences_eq] at hmem
      obtain ⟨effect, heffect, rfl⟩ := List.mem_map.mp hmem
      unfold Connection.act Connection.close at heffect
      dsimp only at heffect
      split at heffect
      next =>
        obtain rfl := List.mem_singleton.mp heffect
        exact ⟨_, _, rfl⟩
      next => cases heffect

/-- All that is seen of closing is that connections which have never run are closed now. -/
theorem close_isClosure (relay : Relay) (component : Component) :
    ∀ occurrence ∈ (relay.close component).occurrences, IsClosure occurrence := by
  have hendpoint : ∀ (relay : Relay) (server endpoint : Nat),
      ∀ occurrence ∈ (relay.closeEndpoint server endpoint).occurrences, IsClosure occurrence :=
    fun relay server endpoint => closeEach_forall
      (fun relay index => act_close_isClosure relay ⟨server, endpoint, index⟩) _ _
  have hserver : ∀ (relay : Relay) (server : Nat),
      ∀ occurrence ∈ (relay.closeServer server).occurrences, IsClosure occurrence :=
    fun relay server => closeEach_forall
      (fun relay endpoint => hendpoint relay server endpoint) _ _
  cases component with
  | connection id => exact act_close_isClosure relay id
  | group group =>
      cases group with
      | relay => exact closeEach_forall hserver _ _
      | server server => exact hserver relay server
      | endpoint server endpoint => exact hendpoint relay server endpoint

end Relay

end LiveRelay
