import LiveRelay.Proofs.Connection.Conduct
import LiveRelay.Proofs.Connection.Lifecycle

/-! # The listener of a host

A host binds its listener once, keeps it while peers come and go, and lets go of it right before
it is closed. `Tenure` is what a host has and waits for, by how its attempts to bind have ended;
`act_tends` is what an act makes of it.
-/

namespace LiveRelay

/-- The address that is reported for a listener. -/
def Effect.listening? : Effect → Option SocketAddress
  | .emit (.listening address) => some address
  | _ => none

/-- Whether an effect has to do with the listener of a host or with what becomes of it: a link
that comes up, and the end. -/
def Effect.isOfListener : Effect → Bool
  | .request .bind => true
  | .request .accept => true
  | .request .unbind => true
  | .emit (.listening _) => true
  | .emit (.transition _ target _ _) => target = .active ∨ target = .closed
  | _ => false

/-- The address of the listener that is bound when this is answered, if one is. It may not be
known. -/
def Await.bound? : Await → Signal → Option (Option SocketAddress)
  | .binding, .bound (.ok address) => some address
  | _, _ => none

theorem Await.bound?_of_links {await : Await} {signal : Signal} (h : await.links signal = true) :
    await.bound? signal = none := by
  rcases await.eq_of_links h with rfl | rfl <;> rfl

theorem Request.isOfListener_of_isTraffic {request : Request} (h : request.isTraffic = true) :
    Effect.isOfListener (.request request) = false := by
  cases request <;> first | rfl | cases h

namespace Connection

/-- The address of the listener that is bound in the act, if one is. -/
def bound? (connection : Connection) (act : Act) : Option (Option SocketAddress) :=
  match connection.life, act with
  | .running _ await, .poll false signal => await.bound? signal
  | _, _ => none

/-- What a host has and waits for when its listener has been bound with these addresses. -/
inductive Tenure : List (Option SocketAddress) → Life → Option SocketAddress → Prop
  | unstarted : Tenure [] .unstarted none
  | without {run : Run} {await : Await} (hlistening : run.listening = false)
      (hawait : await = .binding ∨ await = .pausing) : Tenure [] (.running run await) none
  | holding {run : Run} {await : Await} {address : Option SocketAddress}
      (hlistening : run.listening = true) (hawait : await ≠ .binding ∧ await ≠ .dialling) :
      Tenure [address] (.running run await) address
  | ended {binds : List (Option SocketAddress)} {failure : Option ConnectionError}
      (hbinds : binds.length ≤ 1) : Tenure binds (.ended failure) none

/-- What a host does with its listener in an act, when that has been bound with these addresses
before. -/
structure Tends (connection : Connection) (act : Act) (turn : Turn)
    (binds : List (Option SocketAddress)) : Prop where
  tenure : Tenure (binds ++ (connection.bound? act).toList) turn.connection.life
    turn.connection.localAddress
  listening_eq : turn.effects.filterMap Effect.listening? = (connection.bound? act).join.toList
  of_bind : .request .bind ∈ turn.effects → binds ++ (connection.bound? act).toList = []
  of_accept : .request .accept ∈ turn.effects → binds ++ (connection.bound? act).toList ≠ []
  of_active : ∀ source attempt failure,
    .emit (.transition source .active attempt failure) ∈ turn.effects →
      binds ≠ [] ∧ (∃ run, connection.life = .running run .accepting) ∧
        act = .poll false (.accepted (.ok ()))
  of_unbind : .request .unbind ∈ turn.effects → ∃ failure, turn.connection.life = .ended failure
  of_closed : ∀ source attempt failure,
    .emit (.transition source .closed attempt failure) ∈ turn.effects → binds ≠ [] →
      ∃ front back, .request .unbind ∉ front ∧ turn.effects = front ++ .request .unbind ::
        .emit (.transition source .closed attempt failure) :: back

variable {connection : Connection} {fanOut : FanOut} {act : Act} {turn : Turn} {run next : Run}
  {await await' : Await} {binds : List (Option SocketAddress)} {address : Option SocketAddress}

theorem isOfListener_of_mem_dropReport {effect : Effect}
    (h : effect ∈ (connection.dropReport fanOut).map .emit) : effect.isOfListener = false := by
  obtain ⟨kind, hkind, rfl⟩ := List.mem_map.mp h
  obtain ⟨dropped, total, rfl⟩ := mem_dropReport hkind
  rfl

theorem isOfListener_of_mem_parting {effect : Effect}
    (h : effect ∈ connection.parting fanOut await) : effect.isOfListener = false := by
  unfold parting at h
  split_ifs at h
  · rcases List.mem_append.mp h with hreport | hhangUp
    · exact isOfListener_of_mem_dropReport hreport
    · obtain rfl := List.mem_singleton.mp hhangUp
      rfl
  · cases h

theorem Tenure.length_le {life : Life} (h : Tenure binds life address) : binds.length ≤ 1 := by
  cases h with
  | unstarted => exact Nat.zero_le 1
  | without => exact Nat.zero_le 1
  | holding => exact Nat.le_refl 1
  | ended hbinds => exact hbinds

theorem Tenure.of_unstarted (h : Tenure binds .unstarted address) :
    binds = [] ∧ address = none := by
  cases h
  exact ⟨rfl, rfl⟩

theorem Tenure.of_binding (h : Tenure binds (.running run .binding) address) :
    binds = [] ∧ address = none := by
  cases h with
  | without => exact ⟨rfl, rfl⟩
  | holding _ hawait => exact absurd rfl hawait.1

/-- A host that waits for a peer has its listener. -/
theorem Tenure.of_links {signal : Signal} (h : Tenure binds (.running run await) address)
    (hlinks : await.links signal = true) :
    ∃ bound, binds = [bound] ∧ address = bound ∧ run.listening = true ∧ await = .accepting ∧
      signal = .accepted (.ok ()) := by
  cases h with
  | without _ hawait => rcases hawait with rfl | rfl <;> cases hlinks
  | holding hlistening hawait =>
      refine ⟨_, rfl, rfl, hlistening, ?_⟩
      unfold Await.links at hlinks
      split at hlinks
      next => exact absurd rfl hawait.2
      next => exact ⟨rfl, rfl⟩
      next => cases hlinks

theorem Tenure.seeks (h : Tenure binds (.running run await) address) :
    Tenure binds (.running run (if run.listening then .accepting else .binding)) address := by
  cases h with
  | without hnone =>
      rw [hnone]
      exact .without hnone (.inl rfl)
  | holding hsome =>
      rw [hsome]
      exact .holding hsome ⟨nofun, nofun⟩

/-- A listener that is bound stays bound as long as the run goes on. -/
theorem Tenure.goesOn (h : Tenure binds (.running run await) address)
    (hlistening : next.listening = run.listening)
    (hawait : await' = .pausing ∨ await.hasLink = true ∧ await'.hasLink = true) :
    Tenure binds (.running next await') address := by
  cases h with
  | without hnone hbefore =>
      refine .without (hlistening.trans hnone) (.inr ?_)
      rcases hawait with hpausing | ⟨hlink, -⟩
      · exact hpausing
      · rcases hbefore with rfl | rfl <;> cases hlink
  | holding hsome hbefore =>
      refine .holding (hlistening.trans hsome) ?_
      rcases hawait with rfl | ⟨-, hlink⟩
      · exact ⟨nofun, nofun⟩
      · constructor <;> rintro rfl <;> cases hlink

theorem filterMap_listening? {effects : List Effect}
    (h : ∀ effect ∈ effects, effect.isOfListener = false) :
    effects.filterMap Effect.listening? = [] := by
  rw [List.filterMap_eq_nil_iff]
  intro effect hmem
  have hidle := h effect hmem
  unfold Effect.listening?
  split
  next => cases hidle
  next => rfl

/-- Nothing has been done with the listener. -/
theorem tends_of_idle (hbound : connection.bound? act = none)
    (htenure : Tenure binds turn.connection.life turn.connection.localAddress)
    (heffects : ∀ effect ∈ turn.effects, effect.isOfListener = false) :
    connection.Tends act turn binds := by
  have hnone : ∀ {effect : Effect}, effect.isOfListener = true → effect ∉ turn.effects := by
    intro effect hof hmem
    rw [heffects effect hmem] at hof
    cases hof
  constructor
  case tenure => simpa [hbound] using htenure
  case listening_eq =>
    rw [hbound, filterMap_listening? heffects]
    rfl
  case of_bind => exact fun hmem => absurd hmem (hnone rfl)
  case of_accept => exact fun hmem => absurd hmem (hnone rfl)
  case of_active => exact fun _ _ _ hmem => absurd hmem (hnone rfl)
  case of_unbind => exact fun hmem => absurd hmem (hnone rfl)
  case of_closed => exact fun _ _ _ hmem => absurd hmem (hnone rfl)

/-- A run that ends lets go of its listener first. -/
theorem tends_of_finish {held : Turn} {cancelled : Bool} {failure : Option ConnectionError}
    (hbound : connection.bound? act = none)
    (htenure : Tenure binds (.running run await) connection.localAddress)
    (heffects : ∀ effect ∈ held.effects, effect.isOfListener = false) :
    connection.Tends act (held.finish run cancelled failure) binds := by
  let front := held.effects ++
    if cancelled then [.emit (.transition held.connection.state .draining run.budget.used none)]
    else []
  let source := if cancelled then .draining else held.connection.state
  have hfront : ∀ effect ∈ front, effect.isOfListener = false := by
    intro effect hmem
    rcases List.mem_append.mp hmem with hheld | hdrains
    · exact heffects effect hheld
    · split_ifs at hdrains
      · obtain rfl := List.mem_singleton.mp hdrains
        rfl
      · cases hdrains
  have hnone : ∀ {effect : Effect}, effect.isOfListener = true → effect ∉ front := by
    intro effect hof hmem
    rw [hfront effect hmem] at hof
    cases hof
  have hending :
      (held.finish run cancelled failure).effects = front ++ run.ending source failure :=
    held.effects_finish run cancelled failure
  have hmem : ∀ {effect : Effect}, effect.isOfListener = true →
      effect ∈ (held.finish run cancelled failure).effects → effect ∈ run.ending source failure := by
    intro effect hof heffect
    rw [hending] at heffect
    exact (List.mem_append.mp heffect).resolve_left (hnone hof)
  constructor
  case tenure =>
    rw [hbound, Turn.connection_finish]
    exact .ended (by simpa using htenure.length_le)
  case listening_eq =>
    rw [hbound, hending, List.filterMap_append, filterMap_listening? hfront]
    cases hlistening : run.listening <;> simp [Run.ending, hlistening, Effect.listening?]
  case of_bind =>
    intro hbind
    have hend := hmem rfl hbind
    simp [Run.ending] at hend
  case of_accept =>
    intro haccept
    have hend := hmem rfl haccept
    simp [Run.ending] at hend
  case of_active =>
    intro source attempt failure hactive
    have hend := hmem rfl hactive
    simp [Run.ending] at hend
  case of_unbind => exact fun _ => ⟨failure, by rw [Turn.connection_finish]⟩
  case of_closed =>
    intro source' attempt failure' hclosed hbinds
    have hend := hmem rfl hclosed
    have hlistening : run.listening = true := by
      generalize connection.localAddress = address at htenure
      cases htenure with
      | without => exact absurd rfl hbinds
      | holding hlistening => exact hlistening
    simp [Run.ending, hlistening] at hend
    obtain ⟨rfl, rfl, rfl⟩ := hend
    refine ⟨front, [.emit (.stopped (failure'.map (·.message)))], hnone rfl, ?_⟩
    rw [hending, Run.ending, if_pos hlistening]
    rfl

theorem bound?_of_running (h : connection.life = .running run await) (signal : Signal) :
    connection.bound? (.poll false signal) = await.bound? signal := by
  unfold bound?
  rw [h]

theorem bound?_of_not_heeds (h : connection.life.heeds act = false) :
    connection.bound? act = none := by
  unfold bound?
  split
  next run await signal hlife =>
    rw [hlife, Life.heeds] at h
    unfold Await.bound?
    split
    next => cases h
    next => rfl
  next => rfl

theorem bound?_of_hasLink (hlife : connection.life = .running run await)
    (hlink : await.hasLink = true) (signal : Signal) :
    connection.bound? (.poll false signal) = none := by
  rw [bound?_of_running hlife]
  cases await <;> first | rfl | cases hlink

theorem bound?_of_isToRetry (hlife : connection.life = .running run await) {signal : Signal}
    {failure : ConnectionError} (h : connection.IsToRetry await signal failure) :
    connection.bound? (.poll false signal) = none := by
  rcases h with hfails | ⟨hends, -⟩
  · rw [bound?_of_running hlife]
    cases hfails <;> rfl
  · exact bound?_of_hasLink hlife hends.hasLink_eq _

/-- Nothing of the listener is seen when a link is let go. -/
theorem leave_idle {moved : Turn} (hmoves : Turn.Moves { connection, fanOut } moved) :
    ∀ effect ∈ (moved.leave await).effects, effect.isOfListener = false := by
  intro effect hmem
  rw [Turn.effects_leave, hmoves.effects_eq] at hmem
  exact isOfListener_of_mem_parting hmem

/-- A host looks for a link at its listener, or binds it when there is none. -/
theorem tends_of_quest {held : Turn} (hrole : connection.config.role = .host)
    (hheard : held.effects.filterMap Effect.listening? = (connection.bound? act).join.toList)
    (hquiet : ∀ effect ∈ held.effects, effect.isOfListener = true →
      ∃ address, effect = .emit (.listening address))
    (htenure : Tenure (binds ++ (connection.bound? act).toList)
      (.running next (connection.questing next)) held.connection.localAddress) :
    connection.Tends act (held.ask (connection.quest next) next (connection.questing next))
      binds := by
  have hquest : connection.quest next = if next.listening then .accept else .bind := by
    rw [quest, hrole]
  have hlistening : next.listening = true ↔ binds ++ (connection.bound? act).toList ≠ [] := by
    generalize connection.questing next = await at htenure
    generalize held.connection.localAddress = address at htenure
    generalize binds ++ (connection.bound? act).toList = listeners at htenure ⊢
    cases htenure with
    | without hnone => simp [hnone]
    | holding hsome => simp [hsome]
  -- What is seen is the address, if that is known, and the request.
  have hseen : ∀ {effect : Effect}, effect.isOfListener = true →
      effect ∈ (held.ask (connection.quest next) next (connection.questing next)).effects →
        (∃ address, effect = .emit (.listening address)) ∨
          effect = .request (connection.quest next) := by
    intro effect hof hmem
    rcases List.mem_append.mp hmem with hheld | hasked
    · exact .inl (hquiet effect hheld hof)
    · exact .inr (List.mem_singleton.mp hasked)
  constructor
  case tenure => exact htenure
  case listening_eq =>
    rw [Turn.effects_ask, List.filterMap_append, hheard]
    exact List.append_nil _
  case of_bind =>
    intro hbind
    have hsame := (hseen rfl hbind).resolve_left nofun
    rw [hquest] at hsame
    split_ifs at hsame with hsome
    · cases hsame
    · by_contra hbound
      exact hsome (hlistening.mpr hbound)
  case of_accept =>
    intro haccept
    have hsame := (hseen rfl haccept).resolve_left nofun
    rw [hquest] at hsame
    split_ifs at hsame with hsome
    · exact hlistening.mp hsome
    · cases hsame
  case of_active => exact fun _ _ _ hactive => absurd (hseen rfl hactive) (by simp)
  case of_unbind =>
    intro hunbind
    have hsame := (hseen rfl hunbind).resolve_left nofun
    rw [hquest] at hsame
    split_ifs at hsame <;> cases hsame
  case of_closed => exact fun _ _ _ hclosed => absurd (hseen rfl hclosed) (by simp)

theorem act_tends (hrole : connection.config.role = .host)
    (htenure : Tenure binds connection.life connection.localAddress) (fanOut : FanOut)
    (act : Act) : connection.Tends act (connection.act fanOut act) binds := by
  have hquesting : ∀ run,
      connection.questing run = if run.listening then .accepting else .binding :=
    fun run => by rw [questing, hrole]
  have hconduct := connection.act_conducts fanOut act
  generalize connection.act fanOut act = turn at hconduct ⊢
  cases hconduct with
  | rests h asked =>
      exact tends_of_idle (bound?_of_not_heeds h) htenure fun _ hnone =>
        absurd hnone List.not_mem_nil
  | closes h =>
      have hbound : connection.bound? .close = none := by simp [bound?, h]
      rw [h] at htenure
      obtain ⟨rfl, haddress⟩ := htenure.of_unstarted
      constructor
      case tenure =>
        rw [hbound]
        exact haddress ▸ .ended (Nat.zero_le 1)
      case of_closed => exact fun _ _ _ _ hbinds => absurd rfl hbinds
      all_goals simp [hbound, Effect.listening?]
  | begins h token =>
      have hbound : connection.bound? (.run token false) = none := by simp [bound?, h]
      rw [h] at htenure
      obtain ⟨rfl, haddress⟩ := htenure.of_unstarted
      apply tends_of_quest hrole
      · rw [hbound]
        rfl
      · simp [Effect.isOfListener]
      · rw [hbound, hquesting]
        exact haddress ▸ .without rfl (.inl rfl)
  | beginsInVain h token =>
      rw [h] at htenure
      obtain ⟨rfl, haddress⟩ := htenure.of_unstarted
      have hwithout : Tenure [] (.running (connection.firstRun token) .binding)
          connection.localAddress := haddress ▸ .without rfl (.inl rfl)
      apply tends_of_finish (by simp [bound?, h]) hwithout
      simp [Effect.isOfListener]
  | @interrupted run await h signal =>
      rw [h] at htenure
      exact tends_of_finish (by simp [bound?, h]) htenure
        (leave_idle (Turn.Moves.refl { connection, fanOut }))
  | @bound run h address =>
      have hbound := bound?_of_running h (.bound (.ok address))
      simp only [Await.bound?] at hbound
      rw [h] at htenure
      obtain ⟨rfl, haddress⟩ := htenure.of_binding
      apply tends_of_quest hrole
      · rw [hbound, Turn.effects_learn]
        cases address <;> rfl
      · rw [Turn.effects_learn]
        cases address <;> simp
      · rw [hbound, hquesting, Turn.connection_learn, haddress, Option.or_none]
        exact .holding rfl ⟨nofun, nofun⟩
  | @linked run await h signal hlinks moved hmoves =>
      obtain ⟨stats, hconnection⟩ := hmoves.connection_eq
      have hbound := bound?_of_running h signal
      rw [Await.bound?_of_links hlinks] at hbound
      rw [h] at htenure
      obtain ⟨address, rfl, haddress, hlistening, rfl, rfl⟩ := htenure.of_links hlinks
      constructor
      case tenure =>
        rw [hbound, Turn.connection_ask, Turn.connection_transition, hconnection]
        refine haddress ▸ .holding hlistening ?_
        unfold Await.opening
        split <;> exact ⟨nofun, nofun⟩
      case of_active => exact fun _ _ _ _ => ⟨nofun, ⟨run, h⟩, rfl⟩
      all_goals simp [hbound, hmoves.effects_eq, Effect.listening?]
  | @proceeds run await await' h hlink signal moved hmoves request hrequest hlink' =>
      obtain ⟨stats, hconnection⟩ := hmoves.connection_eq
      apply tends_of_idle (bound?_of_hasLink h hlink _)
      · rw [Turn.connection_ask, hconnection]
        exact (h ▸ htenure).goesOn rfl (.inr ⟨hlink, hlink'⟩)
      · rw [Turn.effects_ask, hmoves.effects_eq]
        simpa using Request.isOfListener_of_isTraffic hrequest.isTraffic
  | idles h =>
      exact tends_of_idle (bound?_of_hasLink h rfl _) htenure fun _ hnone =>
        absurd hnone List.not_mem_nil
  | takes h hmoves hrequest hlink' =>
      obtain ⟨stats, hconnection⟩ := hmoves.connection_eq
      apply tends_of_idle (bound?_of_hasLink h rfl _)
      · rw [Turn.connection_ask, hconnection, Turn.reportDrops_eq]
        exact (h ▸ htenure).goesOn rfl (.inr ⟨rfl, hlink'⟩)
      · rw [Turn.effects_ask, hmoves.effects_eq, Turn.reportDrops_eq]
        intro effect hmem
        rcases List.mem_append.mp hmem with hreport | hasked
        · exact isOfListener_of_mem_dropReport hreport
        · obtain rfl := List.mem_singleton.mp hasked
          exact Request.isOfListener_of_isTraffic hrequest.isTraffic
  | queueClosed h hclosed =>
      rw [h] at htenure
      exact tends_of_finish (bound?_of_hasLink h rfl _) htenure
        (leave_idle (Turn.Moves.refl { connection, fanOut }))
  | singleShotOver h hsingle hends hmoves =>
      rw [h] at htenure
      exact tends_of_finish (bound?_of_hasLink h hends.hasLink_eq _) htenure (leave_idle hmoves)
  | pauses h hfailure hmoves hbudget =>
      apply tends_of_idle (bound?_of_isToRetry h hfailure)
      · rw [Turn.connection_ask, Turn.connection_transition, Turn.connection_leave]
        obtain ⟨stats, hconnection⟩ := hmoves.connection_eq
        rw [hconnection]
        exact (h ▸ htenure).goesOn rfl (.inl rfl)
      · rw [Turn.effects_ask, Turn.effects_transition]
        intro effect hmem
        rcases List.mem_append.mp hmem with hset | hasked
        · rcases List.mem_append.mp hset with hleft | hretry
          · exact leave_idle hmoves effect hleft
          · obtain rfl := List.mem_singleton.mp hretry
            rfl
        · obtain rfl := List.mem_singleton.mp hasked
          rfl
  | givesUp h hfailure hmoves hbudget =>
      rw [h] at htenure
      apply tends_of_finish (bound?_of_isToRetry h hfailure) htenure
      intro effect hmem
      rw [Turn.effects_transition] at hmem
      rcases List.mem_append.mp hmem with hleft | hretry
      · exact leave_idle hmoves effect hleft
      · obtain rfl := List.mem_singleton.mp hretry
        rfl
  | @retried run h =>
      have hbound := bound?_of_running h .rested
      simp only [Await.bound?] at hbound
      rw [h] at htenure
      apply tends_of_quest hrole
      · rw [hbound]
        rfl
      · simp [Effect.isOfListener]
      · rw [hbound, hquesting, Option.toList_none, List.append_nil]
        exact htenure.seeks

/-! ### The links of a single-shot host -/

/-- Where no link is looked for once there has been one, there is one at most. -/
theorem countP_active_le {changes : List Transition} {target : ConnectionState}
    (hpath : IsPath .idle changes target)
    (hedge : ∀ change ∈ changes, (∃ earlier step, Edge earlier step change.source change.target) ∧
      (change.source = .active → change.target ≠ .reconnecting)) :
    changes.countP (·.target = .active) ≤ 1 ∧
      (target ∈ [.idle, .establishing, .reconnecting] →
        changes.countP (·.target = .active) = 0) := by
  induction changes using List.reverseRecOn generalizing target with
  | nil => exact ⟨Nat.zero_le 1, fun _ => rfl⟩
  | append_singleton changes change ih =>
      obtain ⟨middle, hbefore, rfl, rfl⟩ := isPath_append.mp hpath
      obtain ⟨hone, hnone⟩ := ih hbefore fun other hother =>
        hedge other (List.mem_append_left _ hother)
      obtain ⟨⟨earlier, step, hlast⟩, hleaves⟩ := hedge change (by simp)
      rw [List.countP_append, List.countP_singleton]
      -- Each edge starts where the earlier changes have led.
      generalize change.source = source at hnone hlast hleaves
      generalize change.target = target at hlast hleaves
      generalize changes.countP (·.target = .active) = links at hone hnone
      cases hlast with
      | link => simp [hnone]
      | loseLink => exact absurd rfl (hleaves rfl)
      | begin => simp [hnone]
      | failAttempt => simp [hnone]
      | retry => simp [hnone]
      | _ => exact ⟨hone, by simp⟩

/-! ### The listener over a run -/

/-- The addresses of the listeners that are bound in these steps. -/
def bindsIn (steps : List Step) : List (Option SocketAddress) :=
  steps.filterMap fun step => step.before.bound? step.act

theorem bindsIn_append (first second : List Step) :
    bindsIn (first ++ second) = bindsIn first ++ bindsIn second := List.filterMap_append

theorem bindsIn_singleton (step : Step) :
    bindsIn [step] = (step.before.bound? step.act).toList := by
  rw [bindsIn]
  cases h : step.before.bound? step.act <;> simp [h]

/-- What a host does with its listener while all of this happens to it. -/
structure KeepsListener (connection : Connection) (occasions : List Occasion) : Prop where
  /-- At most one call to listen succeeds, -/
  bound_once : (bindsIn (connection.history occasions)).length ≤ 1
  /-- and after that there is none. -/
  not_bound_again : ∀ earlier step later, connection.history occasions = earlier ++ step :: later →
    .request .bind ∈ step.turn.effects → bindsIn (earlier ++ [step]) = []
  /-- Peers are waited for at the listener, -/
  waits_bound : ∀ earlier step later, connection.history occasions = earlier ++ step :: later →
    .request .accept ∈ step.turn.effects → bindsIn (earlier ++ [step]) ≠ []
  /-- and a link that comes up has been accepted there. -/
  accepted : ∀ earlier step later, connection.history occasions = earlier ++ step :: later →
    ∀ change ∈ step.transitions, change.target = .active →
      (∃ run, step.before.life = .running run .accepting) ∧
        step.act = .poll false (.accepted (.ok ())) ∧ bindsIn earlier ≠ [] ∧
          ∀ before ∈ earlier, .request .unbind ∉ before.turn.effects
  /-- The address of the listener is reported if it is known, when the listener is bound, -/
  listening_eq : ∀ step ∈ connection.history occasions,
    step.turn.effects.filterMap Effect.listening? = (step.before.bound? step.act).join.toList
  /-- and it can be looked up until the connection is closed. -/
  localAddress_eq : (connection.afterAll occasions).localAddress =
    if (connection.afterAll occasions).state = .closed then none
    else (bindsIn (connection.history occasions)).head?.join
  /-- Until then the listener is not let go, -/
  held : (connection.afterAll occasions).state ≠ .closed →
    ∀ step ∈ connection.history occasions, .request .unbind ∉ step.turn.effects
  /-- and when the connection is closed it goes right before. -/
  released : ∀ earlier step later, connection.history occasions = earlier ++ step :: later →
    bindsIn earlier ≠ [] → ∀ source attempt failure,
      .emit (.transition source .closed attempt failure) ∈ step.turn.effects →
        ∃ front back, .request .unbind ∉ front ∧ step.turn.effects = front ++ .request .unbind ::
          .emit (.transition source .closed attempt failure) :: back
  /-- A single-shot host has one link at most, -/
  linked_once : connection.config.listenMode = .singleShot →
    (reported (connection.history occasions)).countP (·.target = .active) ≤ 1
  /-- and does not look for another when that is gone. -/
  not_relinked : connection.config.listenMode = .singleShot →
    ∀ change ∈ reported (connection.history occasions), change.source = .active →
      change.target ≠ .reconnecting

section History

variable {occasions : List Occasion} {earlier later : List Step} {step : Step}

theorem afterAll_tenure (hcoherent : connection.Coherent) (hrole : connection.config.role = .host)
    (h : Tenure [] connection.life connection.localAddress) (occasions : List Occasion) :
    Tenure (bindsIn (connection.history occasions)) (connection.afterAll occasions).life
      (connection.afterAll occasions).localAddress := by
  induction occasions using List.reverseRecOn with
  | nil => exact h
  | append_singleton first occasion ih =>
      let step : Step := ⟨connection.afterAll first, occasion⟩
      have hhost : step.before.config.role = .host := by
        rw [afterAll_config hcoherent first, hrole]
      have hstep := (act_tends hhost ih step.fanOut step.act).tenure
      rw [history_append, bindsIn_append, afterAll_append]
      rw [← bindsIn_singleton step] at hstep
      exact hstep

theorem tends_of_history (hcoherent : connection.Coherent)
    (hrole : connection.config.role = .host)
    (h : Tenure [] connection.life connection.localAddress)
    (hsteps : connection.history occasions = earlier ++ step :: later) :
    step.before.Tends step.act step.turn (bindsIn earlier) := by
  obtain ⟨first, last, -, rfl, hbefore⟩ := history_split hsteps
  have htenure := afterAll_tenure hcoherent hrole h first
  rw [← hbefore] at htenure
  apply act_tends _ htenure
  rw [hbefore, afterAll_config hcoherent first, hrole]

/-- A listener that is let go belongs to a connection that is closed. -/
theorem closed_of_unbind (hcoherent : connection.Coherent)
    (hrole : connection.config.role = .host)
    (h : Tenure [] connection.life connection.localAddress)
    (hstep : step ∈ connection.history occasions)
    (hunbind : .request .unbind ∈ step.turn.effects) :
    (connection.afterAll occasions).state = .closed := by
  obtain ⟨earlier, later, hsteps⟩ := List.append_of_mem hstep
  obtain ⟨failure, hended⟩ := (tends_of_history hcoherent hrole h hsteps).of_unbind hunbind
  obtain ⟨first, last, rfl, -, hbefore⟩ := history_split hsteps
  have hlife : (connection.afterAll (first ++ step.occasion :: last)).life = .ended failure := by
    rw [afterAll_append, ← hbefore]
    exact afterAll_of_ended hended last
  rw [afterAll_coherent hcoherent, hlife]
  rfl

end History

/-- Whatever happens to a host, it keeps to one listener. -/
theorem ofConfig_keepsListener (parent : ComponentPath) (config : ConnectionConfig)
    (framePath : FramePath) (occasions : List Occasion) (hrole : config.role = .host) :
    (ofConfig parent config framePath).KeepsListener occasions := by
  let connection := ofConfig parent config framePath
  have hcoherent : connection.Coherent := ofConfig_coherent parent config framePath
  have hnew : Tenure [] connection.life connection.localAddress := .unstarted
  have htenure := afterAll_tenure hcoherent hrole hnew occasions
  have hheld : (connection.afterAll occasions).state ≠ .closed →
      ∀ step ∈ connection.history occasions, .request .unbind ∉ step.turn.effects :=
    fun hopen step hstep hunbind => hopen (closed_of_unbind hcoherent hrole hnew hstep hunbind)
  have hnot_relinked : config.listenMode = .singleShot →
      ∀ change ∈ reported (connection.history occasions), change.source = .active →
        change.target ≠ .reconnecting := by
    intro hmode change hchange hsource htarget
    obtain ⟨step, hstep, hchange⟩ := List.mem_flatMap.mp hchange
    obtain ⟨earlier, later, hsteps⟩ := List.append_of_mem hstep
    have hedge := history_edge hcoherent hsteps change hchange
    rw [hsource, htarget] at hedge
    obtain ⟨first, last, -, -, hbefore⟩ := history_split hsteps
    cases hedge with
    | loseLink hsingle =>
        rw [isSingleShot, hbefore, afterAll_config hcoherent first] at hsingle
        simp [connection, ofConfig, hrole, hmode] at hsingle
  constructor
  case bound_once => exact htenure.length_le
  case not_bound_again =>
    intro earlier step later hsteps hbind
    rw [bindsIn_append, bindsIn_singleton]
    exact (tends_of_history hcoherent hrole hnew hsteps).of_bind hbind
  case waits_bound =>
    intro earlier step later hsteps haccept
    rw [bindsIn_append, bindsIn_singleton]
    exact (tends_of_history hcoherent hrole hnew hsteps).of_accept haccept
  case accepted =>
    intro earlier step later hsteps change hchange hactive
    have heffect := step.turn.mem_effects_of_mem_transitions hchange
    rw [hactive] at heffect
    obtain ⟨hbinds, ⟨run, hlife⟩, hact⟩ :=
      (tends_of_history hcoherent hrole hnew hsteps).of_active _ _ _ heffect
    refine ⟨⟨run, hlife⟩, hact, hbinds, ?_⟩
    obtain ⟨first, last, -, rfl, hbefore⟩ := history_split hsteps
    intro before hearlier hunbind
    have hclosed := closed_of_unbind hcoherent hrole hnew hearlier hunbind
    rw [afterAll_coherent hcoherent first, ← hbefore, hlife] at hclosed
    cases hclosed
  case listening_eq =>
    intro step hstep
    obtain ⟨earlier, later, hsteps⟩ := List.append_of_mem hstep
    exact (tends_of_history hcoherent hrole hnew hsteps).listening_eq
  case localAddress_eq =>
    rw [afterAll_coherent hcoherent occasions]
    generalize (connection.afterAll occasions).life = life at htenure ⊢
    generalize (connection.afterAll occasions).localAddress = address at htenure ⊢
    generalize bindsIn (connection.history occasions) = binds at htenure ⊢
    cases htenure with
    | unstarted => rfl
    | @without run await => cases await <;> rfl
    | @holding run await => cases await <;> rfl
    | ended => rfl
  case held => exact hheld
  case released =>
    intro earlier step later hsteps hbinds source attempt failure hclosed
    exact (tends_of_history hcoherent hrole hnew hsteps).of_closed _ _ _ hclosed hbinds
  case linked_once =>
    intro hmode
    apply (countP_active_le (history_isPath hcoherent occasions) _).1
    intro change hchange
    refine ⟨?_, hnot_relinked hmode change hchange⟩
    obtain ⟨step, hstep, hshown⟩ := List.mem_flatMap.mp hchange
    obtain ⟨earlier, later, hsteps⟩ := List.append_of_mem hstep
    exact ⟨earlier, step, history_edge hcoherent hsteps change hshown⟩
  case not_relinked => exact hnot_relinked

/-- A host that serves one peer after the other. -/
def gateConfig : ConnectionConfig where
  index := 0
  address := "127.0.0.1:1935"
  role := .host
  direction := .input
  connectionTimeout := ⟨5000000000⟩
  reconnectInterval := ⟨5000000000⟩
  reconnect := .bounded 3
  pingInterval := ⟨60000000000⟩
  bufferSize := 3000
  amfVersion := none
  listenMode := .persistent
  codec := .raw

/-- Its first call to listen fails. Then a peer comes and leaves, another cannot be accepted, and
the host is told to stop when it waits for the next. -/
def gateOccasions : List Occasion :=
  [.run .relay false, .poll false (.bound (.error "address in use")), .poll false .rested,
    .poll false (.bound (.ok (some (.v4 [127, 0, 0, 1] 1935)))), .poll false (.accepted (.ok ())),
    .poll false (.received (.ok .empty)), .poll false .rested,
    .poll false (.accepted (.error "too many open files")), .poll false .rested,
    .poll true .woken].map fun act => { act, fanOut := { filter := {}, sinks := [] } }

theorem ofConfig_keepsListener_gate :
    let connection := ofConfig .root gateConfig .publish
    gateConfig.role = .host ∧ connection.KeepsListener gateOccasions ∧
      bindsIn (connection.history gateOccasions) = [some (.v4 [127, 0, 0, 1] 1935)] ∧
      ((connection.history gateOccasions).flatMap fun step =>
        step.turn.effects.filter Effect.isOfListener) =
        [.request .bind, .request .bind, .emit (.listening (.v4 [127, 0, 0, 1] 1935)),
          .request .accept, .emit (.transition .establishing .active 0 none), .request .accept,
          .request .accept, .request .unbind, .emit (.transition .draining .closed 2 none)] :=
  ⟨rfl, ofConfig_keepsListener .root gateConfig .publish gateOccasions rfl,
    by decide, by decide⟩

end Connection

end LiveRelay
