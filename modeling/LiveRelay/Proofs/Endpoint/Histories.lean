import LiveRelay.Proofs.Connection.Sink
import LiveRelay.Proofs.Connection.Source
import LiveRelay.Proofs.Endpoint.Relaying

/-! # The connections of an endpoint, each by itself

While things happen to an endpoint, each of its connections has a history of its own, in which
the fan-out is what the others have made of it in the meantime. So what is known of the histories
of a source and of a sink holds in an endpoint, and there the two meet: what a sink has
written is what sources have read.
-/

namespace LiveRelay

open LinkCodec Flv

namespace EndpointStep

variable {index : Nat} {connection : Connection}

/-- What a connection does with frames is done in its own part of the step. -/
theorem flatMap_handling (step : EndpointStep)
    (h : step.before.connections[index]? = some connection)
    (frames : Handling → List Frame) (hidle : frames {} = []) :
    (connection.history (step.occasions index)).flatMap (fun own => frames own.handling) =
      frames (step.handling index) := by
  rcases step.occasions_cases index with ⟨act, hact, hoccasions⟩ | ⟨hrests, hoccasions⟩
  · rw [hoccasions, (handling_of_acts hact h).1]
    exact List.flatMap_singleton ..
  · rw [hoccasions, (handling_of_rests hrests).1, hidle]
    rfl

end EndpointStep

namespace Endpoint

variable {endpoint : Endpoint} {index sink : Nat} {connection : Connection}

theorem occasions_eq_nil {acts : List EndpointAct}
    (h : ∀ act, EndpointAct.connection index act ∉ acts) : endpoint.occasions index acts = [] := by
  induction acts generalizing endpoint with
  | nil => rfl
  | cons act acts ih =>
      have hrest : ∀ other, EndpointAct.connection index other ∉ acts :=
        fun other hother => h other (List.mem_cons_of_mem _ hother)
      rcases EndpointStep.occasions_cases ⟨endpoint, act⟩ index with ⟨other, hact, -⟩ | ⟨-, hnone⟩
      · obtain rfl : act = .connection index other := hact
        exact absurd List.mem_cons_self (h other)
      · rw [occasions, hnone, ih hrest]
        rfl

theorem published_eq (h : endpoint.connections[index]? = some connection)
    (acts : List EndpointAct) : endpoint.published index acts =
      publishedIn (connection.history (endpoint.occasions index acts)) := by
  induction acts generalizing endpoint connection with
  | nil => rfl
  | cons act acts ih =>
      have hrest := ih (EndpointStep.connection_after ⟨endpoint, act⟩ h)
      have hown := EndpointStep.flatMap_handling ⟨endpoint, act⟩ h Handling.published rfl
      rw [occasions, Connection.history_append, publishedIn, List.flatMap_append, hown]
      exact congrArg (_ ++ ·) hrest

theorem written_eq (h : endpoint.connections[index]? = some connection)
    (acts : List EndpointAct) : (endpoint.ledger index sink acts).written =
      writtenIn (connection.history (endpoint.occasions index acts)) := by
  induction acts generalizing endpoint connection with
  | nil => rfl
  | cons act acts ih =>
      have hrest := ih (EndpointStep.connection_after ⟨endpoint, act⟩ h)
      have hown := EndpointStep.flatMap_handling ⟨endpoint, act⟩ h Handling.written rfl
      rw [ledger, Ledger.written_append, EndpointStep.written_entry, occasions,
        Connection.history_append, writtenIn, List.flatMap_append, hown]
      exact congrArg (_ ++ ·) hrest

/-! ### The fan-out -/

theorem closed_act_connection (endpoint : Endpoint) (index : Nat) (act : Act) :
    (endpoint.act (.connection index act)).fanOut.closed = endpoint.fanOut.closed := by
  unfold Endpoint.act
  simp only []
  split
  next => rfl
  next connection _ => exact (keeps_of_handled (connection.act_handled _ act)).2

/-- Only what closes the fan-out of an endpoint closes it. -/
theorem mem_of_closed {acts : List EndpointAct} (hopen : endpoint.fanOut.closed = false)
    (hclosed : (endpoint.afterAll acts).fanOut.closed = true) :
    EndpointAct.closeFanOut ∈ acts := by
  induction acts generalizing endpoint with
  | nil => cases hopen.symm.trans hclosed
  | cons act acts ih =>
      cases act with
      | closeFanOut => exact List.mem_cons_self
      | connection index act =>
          have hstill := (closed_act_connection endpoint index act).trans hopen
          exact List.mem_cons_of_mem _ (ih hstill hclosed)

theorem fanOut_act_close (endpoint : Endpoint) (index : Nat) :
    (endpoint.act (.connection index .close)).fanOut = endpoint.fanOut := by
  unfold Endpoint.act
  simp only []
  split
  next => rfl
  next connection _ =>
    simp only [after, Connection.act, Connection.close]
    split <;> rfl

/-- Closing an endpoint and its connections does nothing else to the fan-out. -/
theorem fanOut_of_closes {acts : List EndpointAct}
    (h : ∀ act ∈ acts, act = .closeFanOut ∨ ∃ index, act = .connection index .close) :
    (endpoint.afterAll acts).fanOut = endpoint.fanOut ∨
      (endpoint.afterAll acts).fanOut = endpoint.fanOut.close := by
  induction acts generalizing endpoint with
  | nil => exact .inl rfl
  | cons act acts ih =>
      have hrest : ((endpoint.act act).afterAll acts).fanOut = (endpoint.act act).fanOut ∨
          ((endpoint.act act).afterAll acts).fanOut = (endpoint.act act).fanOut.close :=
        ih fun other hother => h other (List.mem_cons_of_mem _ hother)
      rcases h act List.mem_cons_self with rfl | ⟨index, rfl⟩
      · have hclose : (endpoint.act .closeFanOut).fanOut = endpoint.fanOut.close := rfl
        rw [hclose, FanOut.close_close, or_self] at hrest
        exact .inr hrest
      · rwa [fanOut_act_close] at hrest

/-! ### Streams of tags -/

/-- Every frame that is published in an endpoint for tags has been read as a tag. -/
theorem wellFormed_published (h : endpoint.IsNew .flv) (acts : List EndpointAct) (index : Nat) :
    ∀ frame ∈ endpoint.published index acts, WellFormed frame := by
  intro frame hframe
  cases hconnection : endpoint.connections[index]? with
  | none =>
      rw [published_nobody hconnection] at hframe
      cases hframe
  | some connection =>
      have hmem := List.mem_of_getElem? hconnection
      have hlater := connection_afterAll_eq hconnection acts
      cases hpath : connection.framePath with
      | deliver sink =>
          have hcoherent := h.isSound.coherent connection hmem
          rw [published_sink h hlater
            ((Connection.afterAll_framePath hcoherent _).trans hpath)] at hframe
          cases hframe
      | publish =>
          have hcoherent := h.isSound.coherent connection hmem
          have hnone := link?_of_isNew h hconnection
          rw [published_eq hconnection, publishedIn, ← Connection.flatMap_links hnone _
            fun step hidle => by rw [(Step.of_isLinked_eq_false hidle).1]] at hframe
          obtain ⟨link, hlink, hframe⟩ := List.mem_flatMap.mp hframe
          obtain ⟨fault?, rest, hreads, -⟩ :=
            Connection.publishedIn_of_flv hcoherent hpath (h.codec_eq connection hmem) hlink
          exact wellFormed_of_reads hreads frame hframe

theorem wellFormed_accepted (h : endpoint.IsNew .flv) (acts : List EndpointAct)
    (index sink : Nat) :
    ∀ frame ∈ (endpoint.ledger index sink acts).accepted, WellFormed frame := by
  induction acts using List.reverseRecOn with
  | nil => nofun
  | append_singleton acts act ih =>
      intro frame hframe
      let step : EndpointStep := ⟨endpoint.afterAll acts, act⟩
      rw [ledger_append_singleton, Ledger.accepted_append, List.mem_append] at hframe
      rcases hframe with hframe | hframe
      · exact ih frame hframe
      · have haccepts : frame ∈ step.before.fanOut.accepts step.published := by
          simpa [EndpointStep.entry, Handling.settled] using hframe
        obtain ⟨actor, hactor, -⟩ := step.published_cases
        have hpublished := FanOut.mem_of_mem_accepts haccepts
        rw [hactor] at hpublished
        apply wellFormed_published h (acts ++ [act]) actor
        rw [published_append_singleton]
        exact List.mem_append_right _ hpublished

/-- What a sink writes to a link of tags is read from it as that. -/
theorem feed_written (h : endpoint.IsNew .flv)
    (hconnection : endpoint.connections[index]? = some connection)
    (hpath : connection.framePath = .deliver sink) (acts : List EndpointAct) {link : List Step}
    (hlink : link ∈ links (connection.history (endpoint.occasions index acts)))
    {chunks : List ByteArray}
    (hchunks : joined chunks = (encodeAll (fresh .flv) (writtenIn link)).output) :
    let reading := (fresh .flv).feed chunks
    reading.frames = writtenIn link ∧ reading.error? = none ∧ reading.buffer = .empty := by
  have hcoherent := h.isSound.coherent connection (List.mem_of_getElem? hconnection)
  obtain ⟨queue, -, haccounts⟩ := accounts_afterAll h (connection_afterAll_eq hconnection acts)
    ((Connection.afterAll_framePath hcoherent _).trans hpath)
  have hwellFormed : ∀ frame ∈ writtenIn link, WellFormed frame := by
    intro frame hframe
    apply wellFormed_accepted h acts index sink
    apply haccounts.balances.written_sublist.subset
    rw [written_eq hconnection, writtenIn,
      ← Connection.flatMap_links (link?_of_isNew h hconnection) _
        fun step hidle => by rw [(Step.of_isLinked_eq_false hidle).1]]
    exact List.mem_flatMap.mpr ⟨link, hlink, hframe⟩
  obtain ⟨codec, hdrain⟩ := drain_encodeAll hwellFormed
  rw [← hchunks] at hdrain
  intro reading
  have hreading : reading = (fresh .flv).drain (joined chunks) :=
    feed_eq_drain (congrArg Drained.error? hdrain)
  rw [hreading, hdrain]
  exact ⟨rfl, rfl, rfl⟩

/-- Whatever happens to a sink, it writes to each of its links on its own. What has happened to
the endpoint comes to such a history, and then a peer that reads a stream of tags gets the
frames that were written. -/
theorem sinks_writeLinks (parent : ComponentPath) (place : Nat) (config : EndpointConfig)
    (hconnection : (ofConfig parent place config).connections[index]? = some connection)
    (hpath : connection.framePath = .deliver sink) :
    (∀ occasions, connection.WritesLinks sink occasions) ∧
      ∀ acts,
        let occasions := (ofConfig parent place config).occasions index acts
        ((ofConfig parent place config).afterAll acts).connections[index]? =
            some (connection.afterAll occasions) ∧
          (config.codec = .flv → ∀ link ∈ links (connection.history occasions), ∀ chunks,
            joined chunks = (encodeAll (fresh .flv) (writtenIn link)).output →
              let reading := (fresh .flv).feed chunks
              reading.frames = writtenIn link ∧ reading.error? = none ∧
                reading.buffer = .empty) := by
  have hnew := ofConfig_isNew parent place config
  constructor
  case left =>
    intro occasions
    obtain ⟨path, settings, framePath, rfl⟩ :=
      connection_ofConfig (List.mem_of_getElem? hconnection)
    obtain rfl : framePath = .deliver sink := hpath
    exact Connection.ofConfig_writesLinks path settings sink occasions
  case right =>
    intro acts
    refine ⟨connection_afterAll_eq hconnection acts, fun hflv link hlink chunks hchunks => ?_⟩
    rw [hflv] at hnew
    exact feed_written hnew hconnection hpath acts hlink hchunks

/-- One tag passes the filter: it is what the only link of the sink takes, and whoever reads
that gets it. -/
theorem sinks_writeLinks_unevenStream :
    let endpoint := ofConfig .root 0 mutedConfig
    let occasions := endpoint.occasions 1 (linkingActs ++ relayingActs)
    ∃ connection, endpoint.connections[1]? = some connection ∧
      connection.framePath = .deliver 0 ∧ connection.WritesLinks 0 occasions ∧
      ∃ link ∈ links (connection.history occasions), (writtenIn link).length = 1 ∧
        sentIn link = passedStream ∧
        ((fresh .flv).feed [(encodeAll (fresh .flv) (writtenIn link)).output]).frames =
          writtenIn link := by
  intro endpoint occasions
  have hwritten : endpoint.connections[1]?.map (fun connection => (connection.framePath,
      (links (connection.history occasions)).map fun link =>
        ((writtenIn link).length, sentIn link))) = some (.deliver 0, [(1, passedStream)]) := by
    decide +kernel
  obtain ⟨connection, hconnection, hsame⟩ := Option.map_eq_some_iff.mp hwritten
  obtain ⟨hpath, hlinks⟩ := Prod.mk.inj hsame
  obtain ⟨link, hlink, heq⟩ : ∃ link ∈ links (connection.history occasions),
      ((writtenIn link).length, sentIn link) = (1, passedStream) := by
    rw [← List.mem_map, hlinks]
    exact List.mem_singleton_self _
  obtain ⟨hone, hsent⟩ := Prod.mk.inj heq
  obtain ⟨hwrites, hacts⟩ := sinks_writeLinks .root 0 mutedConfig hconnection hpath
  have hread := (hacts (linkingActs ++ relayingActs)).2 rfl link hlink
    [(encodeAll (fresh .flv) (writtenIn link)).output] (ByteArray.append_empty)
  exact ⟨connection, hconnection, hpath, hwrites occasions, link, hlink, hone, hsent, hread.1⟩

end Endpoint

end LiveRelay
