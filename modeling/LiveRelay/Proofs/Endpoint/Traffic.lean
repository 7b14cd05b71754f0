import Mathlib.Data.List.Induction
import LiveRelay.Proofs.Connection.Stream
import LiveRelay.Proofs.Endpoint.Conservation

/-! # What goes over the links of an endpoint

Every link of an endpoint goes its own way, whatever the other connections do in between. So
a source that has had one link has published what it has read (`isFed_afterAll`), and a sink
whose link stays up has sent what it has written (`sends_afterAll`).
-/

namespace LiveRelay

open LinkCodec

/-- Where nothing has been accepted, there is nothing. -/
theorem Ledger.Accounts.nothing {ledger : Ledger} {connection : Connection} {queue : SinkQueue}
    (h : ledger.Accounts connection queue) (hnothing : ledger.accepted = []) :
    ledger.written = [] ∧ ledger.lost = [] ∧ ledger.interrupted = [] ∧
      connection.life.inHand = [] ∧ queue.frames = [] := by
  have horder := h.order
  rw [hnothing, List.sublist_nil, List.append_eq_nil_iff, List.append_eq_nil_iff] at horder
  obtain ⟨⟨hwritten, hhand⟩, hframes⟩ := horder
  have hbalance := h.balance
  rw [h.queued_eq, hnothing, List.length_nil, h.framesLost_eq] at hbalance
  have hlost : ledger.lost.length = 0 := by omega
  have hinterrupted : ledger.interrupted.length = 0 := by omega
  exact ⟨hwritten, List.length_eq_zero_iff.mp hlost, List.length_eq_zero_iff.mp hinterrupted,
    hhand, hframes⟩

/-! ## One step of an endpoint -/

/-- What goes over the links of one of the connections in a step. -/
def EndpointStep.traffic (step : EndpointStep) (index : Nat) : Traffic :=
  match step.act, step.before.connections[index]? with
  | .connection actor act, some connection => if actor = index then connection.traffic act else {}
  | _, _ => {}

namespace EndpointStep

variable {step : EndpointStep} {index : Nat}

@[simp] theorem written_entry (step : EndpointStep) (index sink : Nat) :
    (step.entry index sink).written = (step.handling index).written := by
  simp [entry, Handling.settled]

@[simp] theorem lost_entry (step : EndpointStep) (index sink : Nat) :
    (step.entry index sink).lost = (step.handling index).lost := by
  simp [entry, Handling.settled]

@[simp] theorem interrupted_entry (step : EndpointStep) (index sink : Nat) :
    (step.entry index sink).interrupted = (step.handling index).interrupted := by
  simp [entry, Handling.settled]

@[simp] theorem skipped_entry (step : EndpointStep) (index sink : Nat) :
    (step.entry index sink).skipped = (step.handling index).skipped := by
  simp [entry, Handling.settled]

/-- A connection goes on as its act has it, or nothing happens to it. -/
theorem connection_cases {later : Connection} (h : step.after.connections[index]? = some later) :
    (∃ connection act, step.act = .connection index act ∧
      step.before.connections[index]? = some connection ∧
      later = (connection.act step.before.fanOut act).connection) ∨
    (step.before.connections[index]? = some later ∧ ∀ act, step.act ≠ .connection index act) := by
  obtain ⟨before, act⟩ := step
  cases act with
  | closeFanOut => exact .inr ⟨h, nofun⟩
  | connection actor act =>
      simp only [EndpointStep.after, Endpoint.act] at h
      cases hactor : before.connections[actor]? with
      | none =>
          rw [hactor] at h
          refine .inr ⟨h, fun other hother => ?_⟩
          cases hother
          cases hactor.symm.trans h
      | some connection =>
          simp only [hactor, Endpoint.after] at h
          by_cases hindex : actor = index
          · subst hindex
            left
            have hlt := (List.getElem?_eq_some_iff.mp hactor).1
            rw [List.getElem?_set_self hlt] at h
            exact ⟨connection, act, rfl, hactor, (Option.some.inj h).symm⟩
          · right
            rw [List.getElem?_set_ne hindex] at h
            refine ⟨h, fun other hother => hindex ?_⟩
            cases hother
            rfl

theorem handling_of_acts {connection : Connection} {act : Act}
    (hact : step.act = .connection index act)
    (hconnection : step.before.connections[index]? = some connection) :
    step.handling index = connection.handling step.before.fanOut act ∧
      step.traffic index = connection.traffic act := by
  simp only [handling, traffic, hact, hconnection, if_true, and_self]

theorem handling_of_rests (h : ∀ act, step.act ≠ .connection index act) :
    step.handling index = {} ∧ step.traffic index = {} := by
  unfold handling traffic
  cases hact : step.act with
  | closeFanOut => exact ⟨rfl, rfl⟩
  | connection actor act =>
      have hne : actor ≠ index := by
        rintro rfl
        exact h act hact
      cases step.before.connections[index]? <;> simp [hne]

/-- In a step of an endpoint every link goes one of the ways of `Flow`. -/
theorem flows (h : step.before.IsSound) {later : Connection}
    (hlater : step.after.connections[index]? = some later) :
    ∃ connection, step.before.connections[index]? = some connection ∧
      later.config = connection.config ∧ later.framePath = connection.framePath ∧
      Flow connection.config.codec connection.framePath step.before.fanOut
        connection.life.link? (step.traffic index) (step.handling index) later.life.link? := by
  rcases connection_cases hlater with ⟨connection, act, hact, hconnection, rfl⟩ | ⟨hsame, hrests⟩
  · have hcoherent := h.coherent connection (List.mem_of_getElem? hconnection)
    obtain ⟨_, _, -, hgoes⟩ := Connection.act_takesCourse hcoherent step.before.fanOut act
    refine ⟨connection, hconnection, hgoes.config_eq, hgoes.framePath_eq, ?_⟩
    obtain ⟨hhandling, htraffic⟩ := handling_of_acts hact hconnection
    rw [hhandling, htraffic]
    exact connection.act_flows step.before.fanOut act
  · refine ⟨later, hsame, rfl, rfl, ?_⟩
    obtain ⟨hhandling, htraffic⟩ := handling_of_rests hrests
    rw [hhandling, htraffic]
    exact .rests _

/-- Whatever is published in a step, it is one of the connections that publishes it. -/
theorem published_cases (step : EndpointStep) :
    ∃ actor, step.published = (step.handling actor).published ∧
      ∀ index, index ≠ actor → (step.handling index).published = [] := by
  cases hact : step.act with
  | closeFanOut =>
      have hidle : ∀ index, (step.handling index).published = [] := by
        intro index
        have hrests : ∀ act, step.act ≠ .connection index act := by
          rw [hact]
          nofun
        rw [(handling_of_rests hrests).1]
      refine ⟨0, ?_, fun index _ => hidle index⟩
      simp only [published, hact, hidle]
  | connection actor act =>
      refine ⟨actor, by simp only [published, hact], fun index hindex => ?_⟩
      have hrests : ∀ other, step.act ≠ .connection index other := by
        rintro other hother
        rw [hact] at hother
        cases hother
        exact hindex rfl
      rw [(handling_of_rests hrests).1]

/-- Nothing opens a fan-out again, and its filter stays as it is. -/
theorem fanOut_after (step : EndpointStep) :
    step.after.fanOut.filter = step.before.fanOut.filter ∧
      (step.after.fanOut.closed = false → step.before.fanOut.closed = false ∧
        ∀ sink, step.discarded sink = []) := by
  obtain ⟨before, act⟩ := step
  cases act with
  | closeFanOut =>
      simp only [EndpointStep.after, Endpoint.act, FanOut.close]
      split_ifs with hclosed
      · exact ⟨rfl, fun hopen => absurd (hclosed.symm.trans hopen) (by decide)⟩
      · refine ⟨rfl, fun hopen => ?_⟩
        cases hopen
  | connection actor act =>
      simp only [EndpointStep.after, Endpoint.act]
      split
      next => exact ⟨rfl, fun hopen => ⟨hopen, fun _ => rfl⟩⟩
      next connection _ =>
        have hsame := Endpoint.keeps_of_handled (connection.act_handled before.fanOut act)
        exact ⟨hsame.1, fun hopen => ⟨hsame.2.symm.trans hopen, fun _ => rfl⟩⟩

end EndpointStep

/-! ## All that happens to an endpoint -/

namespace Endpoint

/-- What goes over the links of one of the connections, while all of this happens to the
endpoint. -/
def traffic (endpoint : Endpoint) (index : Nat) : List EndpointAct → Traffic
  | [] => {}
  | act :: acts =>
      (EndpointStep.mk endpoint act).traffic index ++ (endpoint.act act).traffic index acts

/-- What one of the connections publishes, while all of this happens to the endpoint. -/
def published (endpoint : Endpoint) (index : Nat) : List EndpointAct → List Frame
  | [] => []
  | act :: acts =>
      ((EndpointStep.mk endpoint act).handling index).published ++
        (endpoint.act act).published index acts

section Append

variable (endpoint : Endpoint) (index sink : Nat) (first second : List EndpointAct)
  (act : EndpointAct)

theorem afterAll_append :
    endpoint.afterAll (first ++ second) = (endpoint.afterAll first).afterAll second := by
  induction first generalizing endpoint with
  | nil => rfl
  | cons act acts ih => exact ih _

theorem afterAll_append_singleton :
    endpoint.afterAll (first ++ [act]) =
      (EndpointStep.mk (endpoint.afterAll first) act).after := by
  rw [afterAll_append]
  rfl

theorem ledger_append : endpoint.ledger index sink (first ++ second) =
    endpoint.ledger index sink first ++ (endpoint.afterAll first).ledger index sink second := by
  induction first generalizing endpoint with
  | nil => exact (Ledger.nil_append _).symm
  | cons act acts ih => simp only [List.cons_append, ledger, afterAll, ih, Ledger.append_assoc]

theorem ledger_append_singleton : endpoint.ledger index sink (first ++ [act]) =
    endpoint.ledger index sink first ++
      (EndpointStep.mk (endpoint.afterAll first) act).entry index sink := by
  rw [ledger_append, ledger, ledger, Ledger.append_nil]

theorem traffic_append : endpoint.traffic index (first ++ second) =
    endpoint.traffic index first ++ (endpoint.afterAll first).traffic index second := by
  induction first generalizing endpoint with
  | nil => exact (Traffic.nil_append _).symm
  | cons act acts ih => simp only [List.cons_append, traffic, afterAll, ih, Traffic.append_assoc]

theorem traffic_append_singleton : endpoint.traffic index (first ++ [act]) =
    endpoint.traffic index first ++
      (EndpointStep.mk (endpoint.afterAll first) act).traffic index := by
  rw [traffic_append, traffic, traffic, Traffic.append_nil]

theorem published_append_singleton : endpoint.published index (first ++ [act]) =
    endpoint.published index first ++
      ((EndpointStep.mk (endpoint.afterAll first) act).handling index).published := by
  induction first generalizing endpoint with
  | nil => simp [published, afterAll]
  | cons act acts ih => simp only [List.cons_append, published, afterAll, ih, List.append_assoc]

end Append

/-- What the link of one of the connections is used for, if it is up. -/
def link? (endpoint : Endpoint) (index : Nat) : Option Await :=
  endpoint.connections[index]?.bind (·.life.link?)

/-- Nothing has happened to the endpoint yet, and its links all have one codec. -/
structure IsNew (endpoint : Endpoint) (kind : CodecKind) : Prop where
  isSound : endpoint.IsSound
  hasLedgers : endpoint.HasLedgers fun _ _ => {}
  unstarted : ∀ connection ∈ endpoint.connections, connection.life = .unstarted
  codec_eq : ∀ connection ∈ endpoint.connections, connection.config.codec = kind

theorem ofConfig_isNew (parent : ComponentPath) (place : Nat) (config : EndpointConfig) :
    (ofConfig parent place config).IsNew config.codec where
  isSound := ofConfig_isSound parent place config
  hasLedgers := ofConfig_hasLedgers parent place config
  unstarted := by
    intro connection hconnection
    obtain ⟨path, settings, framePath, rfl⟩ := connection_ofConfig hconnection
    rfl
  codec_eq := by
    intro connection hconnection
    obtain ⟨index, hlt, rfl⟩ := List.getElem_of_mem hconnection
    simp only [ofConfig, List.getElem_zipWith, EndpointConfig.connections, List.getElem_mapIdx]
    rfl

variable {endpoint : Endpoint} {kind : CodecKind}

theorem afterAll_isSound (h : endpoint.IsSound) (acts : List EndpointAct) :
    (endpoint.afterAll acts).IsSound := by
  induction acts generalizing endpoint with
  | nil => exact h
  | cons act acts ih => exact ih (act_isSound h act)

/-- A connection keeps its settings. -/
theorem connection_afterAll (h : endpoint.IsSound) {acts : List EndpointAct} {index : Nat}
    {later : Connection} (hlater : (endpoint.afterAll acts).connections[index]? = some later) :
    ∃ connection, endpoint.connections[index]? = some connection ∧
      later.config = connection.config ∧ later.framePath = connection.framePath := by
  induction acts using List.reverseRecOn generalizing later with
  | nil => exact ⟨later, hlater, rfl, rfl⟩
  | append_singleton acts act ih =>
      rw [afterAll_append_singleton] at hlater
      obtain ⟨middle, hmiddle, hconfig, hpath, -⟩ :=
        EndpointStep.flows (afterAll_isSound h acts) hlater
      obtain ⟨connection, hconnection, hconfig', hpath'⟩ := ih hmiddle
      exact ⟨connection, hconnection, hconfig.trans hconfig', hpath.trans hpath'⟩

theorem codec_afterAll (h : endpoint.IsNew kind) {acts : List EndpointAct} {index : Nat}
    {later : Connection} (hlater : (endpoint.afterAll acts).connections[index]? = some later) :
    later.config.codec = kind := by
  obtain ⟨connection, hconnection, hconfig, -⟩ := connection_afterAll h.isSound hlater
  rw [hconfig]
  exact h.codec_eq connection (List.mem_of_getElem? hconnection)

theorem length_connections_act (endpoint : Endpoint) (act : EndpointAct) :
    (endpoint.act act).connections.length = endpoint.connections.length := by
  unfold Endpoint.act
  split
  next =>
    split
    next => rfl
    next => exact List.length_set
  next => rfl

theorem length_connections_afterAll (endpoint : Endpoint) (acts : List EndpointAct) :
    (endpoint.afterAll acts).connections.length = endpoint.connections.length := by
  induction acts generalizing endpoint with
  | nil => rfl
  | cons act acts ih => exact (ih _).trans (length_connections_act endpoint act)

theorem accounts_afterAll (h : endpoint.IsNew kind) {acts : List EndpointAct} {index sink : Nat}
    {later : Connection} (hlater : (endpoint.afterAll acts).connections[index]? = some later)
    (hpath : later.framePath = .deliver sink) :
    ∃ queue, (endpoint.afterAll acts).fanOut.sinks[sink]? = some queue ∧
      (endpoint.ledger index sink acts).Accounts later queue := by
  have hledgers := afterAll_hasLedgers h.isSound h.hasLedgers acts
  simp only [Ledger.nil_append] at hledgers
  exact hledgers index later sink hlater hpath

theorem link?_of_isNew (h : endpoint.IsNew kind) {index : Nat} {connection : Connection}
    (hconnection : endpoint.connections[index]? = some connection) :
    connection.life.link? = none := by
  rw [h.unstarted connection (List.mem_of_getElem? hconnection)]
  rfl

theorem fits_afterAll (h : endpoint.IsNew kind) {acts : List EndpointAct} {index : Nat}
    {later : Connection} (hlater : (endpoint.afterAll acts).connections[index]? = some later) :
    ∀ await ∈ later.life.link?, await.Fits later.framePath := by
  induction acts using List.reverseRecOn generalizing later with
  | nil =>
      rw [link?_of_isNew h hlater]
      nofun
  | append_singleton acts act ih =>
      rw [afterAll_append_singleton] at hlater
      obtain ⟨connection, hconnection, -, hpath, hflow⟩ :=
        EndpointStep.flows (afterAll_isSound h.isSound acts) hlater
      rw [hpath]
      exact hflow.fits (ih hconnection)

/-! ### Sources -/

/-- What a source publishes is what it has read, as long as it has had one link at most. -/
theorem isFed_afterAll (h : endpoint.IsNew kind) {acts : List EndpointAct} {index : Nat}
    {later : Connection} (hlater : (endpoint.afterAll acts).connections[index]? = some later)
    (hpath : later.framePath = .publish) (hone : (endpoint.traffic index acts).opened ≤ 1) :
    IsFed kind (endpoint.traffic index acts) (endpoint.published index acts)
      later.life.link? := by
  induction acts using List.reverseRecOn generalizing later with
  | nil =>
      rw [link?_of_isNew h hlater]
      exact ⟨rfl, fun _ => ⟨rfl, rfl⟩, nofun⟩
  | append_singleton acts act ih =>
      rw [afterAll_append_singleton] at hlater
      rw [traffic_append_singleton] at hone
      obtain ⟨connection, hconnection, -, hpath', hflow⟩ :=
        EndpointStep.flows (afterAll_isSound h.isSound acts) hlater
      have hsource : connection.framePath = .publish := hpath'.symm.trans hpath
      rw [hsource, codec_afterAll h hconnection] at hflow
      rw [traffic_append_singleton, published_append_singleton]
      exact hflow.isFed (ih hconnection hsource (Nat.le_of_add_right_le hone)) hone

theorem published_sink (h : endpoint.IsNew kind) {acts : List EndpointAct} {index sink : Nat}
    {later : Connection} (hlater : (endpoint.afterAll acts).connections[index]? = some later)
    (hpath : later.framePath = .deliver sink) : endpoint.published index acts = [] := by
  induction acts using List.reverseRecOn generalizing later with
  | nil => rfl
  | append_singleton acts act ih =>
      rw [afterAll_append_singleton] at hlater
      obtain ⟨connection, hconnection, -, hpath', hflow⟩ :=
        EndpointStep.flows (afterAll_isSound h.isSound acts) hlater
      have hsink : connection.framePath = .deliver sink := hpath'.symm.trans hpath
      have hfits := fits_afterAll h hconnection
      rw [hsink] at hflow hfits
      rw [published_append_singleton, ih hconnection hsink, hflow.published_eq_nil hfits]
      rfl

theorem published_nobody {index : Nat} (hnone : endpoint.connections[index]? = none)
    (acts : List EndpointAct) : endpoint.published index acts = [] := by
  induction acts generalizing endpoint with
  | nil => rfl
  | cons act acts ih =>
      have hstep : (EndpointStep.mk endpoint act).handling index = {} := by
        unfold EndpointStep.handling
        simp only [hnone]
      have hafter : (endpoint.act act).connections[index]? = none := by
        rw [List.getElem?_eq_none_iff] at hnone ⊢
        rwa [length_connections_act]
      rw [published, hstep, ih hafter]
      rfl

/-- Nobody publishes who is not a source with a link. -/
theorem published_eq_nil (h : endpoint.IsNew kind) {acts : List EndpointAct} {index : Nat}
    (hunopened : ∀ connection, endpoint.connections[index]? = some connection →
      connection.framePath = .publish → (endpoint.traffic index acts).opened = 0) :
    endpoint.published index acts = [] := by
  cases hlater : (endpoint.afterAll acts).connections[index]? with
  | none =>
      apply published_nobody
      rw [List.getElem?_eq_none_iff] at hlater ⊢
      rwa [length_connections_afterAll] at hlater
  | some later =>
      obtain ⟨connection, hconnection, -, hsame⟩ := connection_afterAll h.isSound hlater
      cases hpath : later.framePath with
      | deliver sink => exact published_sink h hlater hpath
      | publish =>
          have hzero := hunopened connection hconnection (hsame.symm.trans hpath)
          have hfed := isFed_afterAll h hlater hpath (by rw [hzero]; exact Nat.zero_le 1)
          rw [hfed.published_eq, (hfed.unopened hzero).1]
          rfl

/-- The only source that has had a link. -/
def IsOnlySource (endpoint : Endpoint) (source : Nat) (acts : List EndpointAct) : Prop :=
  ∀ other connection, endpoint.connections[other]? = some connection →
    connection.framePath = .publish → other ≠ source → (endpoint.traffic other acts).opened = 0

theorem IsOnlySource.of_append_singleton {source : Nat} {acts : List EndpointAct}
    {act : EndpointAct} (h : endpoint.IsOnlySource source (acts ++ [act])) :
    endpoint.IsOnlySource source acts := by
  intro other connection hconnection hpath hne
  have hzero := h other connection hconnection hpath hne
  rw [traffic_append_singleton] at hzero
  exact (Nat.add_eq_zero_iff.mp hzero).1

theorem IsOnlySource.published_eq {source : Nat} {acts : List EndpointAct} {act : EndpointAct}
    (h : endpoint.IsNew kind) (honly : endpoint.IsOnlySource source (acts ++ [act])) :
    let step : EndpointStep := ⟨endpoint.afterAll acts, act⟩
    step.published = (step.handling source).published := by
  intro step
  obtain ⟨actor, hactor, hothers⟩ := step.published_cases
  by_cases hsource : source = actor
  · rw [hactor, hsource]
  · have hnil := published_eq_nil h fun connection hconnection hpath =>
      honly actor connection hconnection hpath (Ne.symm hsource)
    rw [published_append_singleton] at hnil
    rw [hactor, hothers source hsource]
    exact (List.append_eq_nil_iff.mp hnil).2

/-- What the fan-out has accepted is what the only source has published, as far as the filter
lets it pass. -/
theorem accepted_eq (h : endpoint.IsNew kind) {acts : List EndpointAct} {source : Nat}
    (honly : endpoint.IsOnlySource source acts)
    (hopen : (endpoint.afterAll acts).fanOut.closed = false) (index sink : Nat) :
    (endpoint.ledger index sink acts).accepted =
        (endpoint.published source acts).filter endpoint.fanOut.filter.allows ∧
      (endpoint.afterAll acts).fanOut.filter = endpoint.fanOut.filter := by
  induction acts using List.reverseRecOn with
  | nil => exact ⟨rfl, rfl⟩
  | append_singleton acts act ih =>
      let step : EndpointStep := ⟨endpoint.afterAll acts, act⟩
      rw [afterAll_append_singleton] at hopen ⊢
      obtain ⟨hfilter, hkept⟩ := step.fanOut_after
      have hopened := (hkept hopen).1
      obtain ⟨haccepted, hsame⟩ := ih honly.of_append_singleton hopened
      have hentry : (step.entry index sink).accepted =
          (step.handling source).published.filter endpoint.fanOut.filter.allows := by
        have hbefore : step.before.fanOut.filter = endpoint.fanOut.filter := hsame
        have hpublished : step.published = (step.handling source).published :=
          honly.published_eq h
        rw [← hpublished, ← hbefore]
        simp [EndpointStep.entry, Handling.settled, FanOut.accepts, hopened]
      rw [ledger_append_singleton, published_append_singleton, Ledger.accepted_append, haccepted,
        hentry, List.filter_append]
      exact ⟨rfl, hfilter.trans hsame⟩

/-- No queue has been closed on the frames in it as long as the fan-out is open. -/
theorem discarded_eq_nil {acts : List EndpointAct}
    (hopen : (endpoint.afterAll acts).fanOut.closed = false) (index sink : Nat) :
    (endpoint.ledger index sink acts).discarded = [] := by
  induction acts using List.reverseRecOn with
  | nil => rfl
  | append_singleton acts act ih =>
      let step : EndpointStep := ⟨endpoint.afterAll acts, act⟩
      rw [afterAll_append_singleton] at hopen
      obtain ⟨hopened, hdiscarded⟩ := step.fanOut_after.2 hopen
      have hentry : (step.entry index sink).discarded = [] := by
        simp [EndpointStep.entry, Handling.settled, hdiscarded sink]
      rw [ledger_append_singleton, Ledger.discarded_append, ih hopened, hentry]
      rfl

/-! ### Sinks -/

/-- A sink has written nothing and has nothing to write, as long as nothing was accepted. -/
theorem sends_of_nothing (h : endpoint.IsNew kind) {acts : List EndpointAct} {index sink : Nat}
    (hnothing : (endpoint.ledger index sink acts).accepted = []) {later : Connection}
    (hlater : (endpoint.afterAll acts).connections[index]? = some later)
    (hpath : later.framePath = .deliver sink) :
    (endpoint.traffic index acts).sent = .empty ∧
      ∀ await ∈ later.life.link?, await.Sends kind [] .empty := by
  induction acts using List.reverseRecOn generalizing later with
  | nil =>
      rw [link?_of_isNew h hlater]
      exact ⟨rfl, nofun⟩
  | append_singleton acts act ih =>
      rw [afterAll_append_singleton] at hlater
      rw [ledger_append_singleton, Ledger.accepted_append, List.append_eq_nil_iff] at hnothing
      obtain ⟨connection, hconnection, -, hpath', hflow⟩ :=
        EndpointStep.flows (afterAll_isSound h.isSound acts) hlater
      have hsink : connection.framePath = .deliver sink := hpath'.symm.trans hpath
      obtain ⟨hsent, hsends⟩ := ih hnothing.1 hconnection hsink
      obtain ⟨queue, hqueue, haccounts⟩ := accounts_afterAll h hconnection hsink
      obtain ⟨-, -, -, hhand, hframes⟩ := haccounts.nothing hnothing.1
      rw [traffic_append_singleton, Traffic.sent_append, hsent, ByteArray.empty_append]
      rw [hsink, codec_afterAll h hconnection] at hflow
      generalize hlink : connection.life.link? = link at hflow hsends
      generalize later.life.link? = link' at hflow
      generalize (EndpointStep.mk (endpoint.afterAll acts) act).traffic index = traffic at hflow ⊢
      generalize (EndpointStep.mk (endpoint.afterAll acts) act).handling index = handling at hflow
      cases hflow with
      | rests => exact ⟨rfl, hsends⟩
      | opens =>
          refine ⟨rfl, fun await hawait => ?_⟩
          obtain rfl := Option.some.inj hawait
          rfl
      | ends => exact ⟨rfl, nofun⟩
      | reads => exact (hsends _ rfl).elim
      | breaks => exact (hsends _ rfl).elim
      | takes hsame hpop =>
          cases hsame
          obtain ⟨queue', popped, hqueue', hpopped, -⟩ := FanOut.eq_of_pop (Prod.ext hpop rfl)
          obtain rfl := Option.some.inj (hqueue.symm.trans hqueue')
          rw [(SinkQueue.eq_of_pop hpopped).1] at hframes
          cases hframes
      | writes =>
          obtain ⟨run, hlife⟩ := Life.running_of_link? hlink
          rw [hlife] at hhand
          cases hhand

/-- A link that stays up loses nothing, and what it has taken are the frames that were written,
one behind the other. -/
theorem sends_afterAll (h : endpoint.IsNew kind) {before during : List EndpointAct}
    {index sink : Nat} {later : Connection}
    (hnothing : (endpoint.ledger index sink before).accepted = [])
    (hup : ∀ acts, acts <+: during → (endpoint.afterAll (before ++ acts)).link? index ≠ none)
    (hlater : (endpoint.afterAll (before ++ during)).connections[index]? = some later)
    (hpath : later.framePath = .deliver sink) :
    let ledger := endpoint.ledger index sink (before ++ during)
    ledger.lost = [] ∧ ledger.interrupted = [] ∧ ∀ await ∈ later.life.link?,
      await.Sends kind ledger.written (endpoint.traffic index (before ++ during)).sent := by
  intro ledger
  induction during using List.reverseRecOn generalizing later with
  | nil =>
      simp only [ledger, List.append_nil] at hlater ⊢
      obtain ⟨hsent, hsends⟩ := sends_of_nothing h hnothing hlater hpath
      obtain ⟨queue, -, haccounts⟩ := accounts_afterAll h hlater hpath
      obtain ⟨hwritten, hlost, hinterrupted, -, -⟩ := haccounts.nothing hnothing
      rw [hwritten, hsent]
      exact ⟨hlost, hinterrupted, hsends⟩
  | append_singleton during act ih =>
      have hnow := hup _ (List.prefix_refl _)
      have hthen := hup _ (List.prefix_append during [act])
      simp only [ledger]
      rw [← List.append_assoc] at hlater hnow ⊢
      rw [afterAll_append_singleton] at hlater hnow
      rw [ledger_append_singleton, traffic_append_singleton]
      obtain ⟨connection, hconnection, -, hpath', hflow⟩ :=
        EndpointStep.flows (afterAll_isSound h.isSound (before ++ during)) hlater
      have hsink : connection.framePath = .deliver sink := hpath'.symm.trans hpath
      obtain ⟨hlost, hinterrupted, hsends⟩ :=
        ih (fun acts hacts => hup acts (hacts.trans (List.prefix_append _ _))) hconnection hsink
      rw [link?, hlater] at hnow
      rw [link?, hconnection] at hthen
      obtain ⟨after, hafter⟩ := Option.ne_none_iff_exists'.mp hnow
      obtain ⟨await, hawait⟩ := Option.ne_none_iff_exists'.mp hthen
      rw [Option.bind_some] at hafter hawait
      rw [hsink, codec_afterAll h hconnection, hafter, hawait] at hflow
      obtain ⟨hnext, hlost', hinterrupted'⟩ := hflow.sends (hsends await hawait) after rfl
      simp only [Ledger.lost_append, Ledger.interrupted_append, Ledger.written_append,
        EndpointStep.lost_entry, EndpointStep.interrupted_entry, EndpointStep.written_entry,
        hlost', hinterrupted', List.append_nil]
      refine ⟨hlost, hinterrupted, fun other hother => ?_⟩
      obtain rfl := Option.some.inj (hafter.symm.trans hother)
      exact hnext

end Endpoint

end LiveRelay
