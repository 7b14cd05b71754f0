import Mathlib.Data.List.Infix
import LiveRelay.Proofs.Codec.Canonical
import LiveRelay.Proofs.Endpoint.Steps

/-! # Sinks write what their source has read

An endpoint whose one source reads a stream, in whatever pieces, passes it on to every sink
that keeps up with it: byte for byte if it is raw, and tag for tag, in canonical form, if it is
a stream of tags that the filter lets pass.
-/

namespace LiveRelay

open LinkCodec Flv

theorem LinkCodec.encodeAll_raw (frames : List Frame) :
    (encodeAll raw frames).output = joined (frames.map Frame.payload) := by
  have hfrom : ∀ output : ByteArray, (frames.foldl Encoding.next ⟨.ok (), raw, output⟩).output =
      output ++ joined (frames.map Frame.payload) := by
    induction frames with
    | nil => intro output; simp [joined]
    | cons frame frames ih =>
        intro output
        rw [List.foldl_cons, List.map_cons, joined, ← ByteArray.append_assoc]
        exact ih _
  rw [encodeAll, hfrom, ByteArray.empty_append]

/-- What is read from a raw link is written as it is. -/
theorem LinkCodec.encodeAll_feed_raw (filter : StreamFilter) (chunks : List ByteArray) :
    (encodeAll raw ((raw.feed chunks).frames.filter filter.allows)).output = joined chunks := by
  rw [encodeAll_raw, feed_raw]
  induction chunks with
  | nil => rfl
  | cons chunk chunks ih =>
      rw [List.flatMap_cons, List.filter_append, List.map_append]
      by_cases hempty : chunk.isEmpty
      · obtain rfl : chunk = .empty := by simpa [ByteArray.isEmpty] using hempty
        rw [joined, ByteArray.empty_append]
        exact ih
      · simp only [if_neg hempty]
        exact congrArg (chunk ++ ·) ih

namespace Endpoint

/-- While all of this happens to it, the endpoint carries a stream from the link of a source to
that of a sink, which is up from before the first frame to the end. -/
structure Carries (endpoint : Endpoint) (source index sink : Nat)
    (before during : List EndpointAct) (stream : ByteArray) : Prop where
  isSource : endpoint.connections[source]?.map (·.framePath) = some .publish
  /-- The stream has been read from one link, and no other source has had any. -/
  opened_le : (endpoint.traffic source (before ++ during)).opened ≤ 1
  isOnlySource : endpoint.IsOnlySource source (before ++ during)
  read_eq : joined (endpoint.traffic source (before ++ during)).read = stream
  isSink : endpoint.connections[index]?.map (·.framePath) = some (.deliver sink)
  nothing_before : (endpoint.ledger index sink before).accepted = []
  stays_up : ∀ acts, acts <+: during → (endpoint.afterAll (before ++ acts)).link? index ≠ none
  not_dropped : (endpoint.afterAll (before ++ during)).fanOut.dropped sink = 0
  /-- In the end the queue has been drained, not closed, and the sink waits for more. -/
  isOpen : (endpoint.afterAll (before ++ during)).fanOut.closed = false
  drained : (endpoint.afterAll (before ++ during)).fanOut.sinks[sink]?.map (·.frames) = some []
  waits : ∃ codec, (endpoint.afterAll (before ++ during)).link? index = some (.watching codec)

variable {endpoint : Endpoint} {kind : CodecKind} {source index sink : Nat}
  {before during : List EndpointAct} {stream : ByteArray}

theorem afterAll_framePath (h : endpoint.IsNew kind) (acts : List EndpointAct) {place : Nat}
    {framePath : FramePath}
    (hpath : endpoint.connections[place]?.map (·.framePath) = some framePath) :
    ∃ later, (endpoint.afterAll acts).connections[place]? = some later ∧
      later.framePath = framePath := by
  obtain ⟨connection, hconnection, hframePath⟩ := Option.map_eq_some_iff.mp hpath
  have hlt := (List.getElem?_eq_some_iff.mp hconnection).1
  rw [← length_connections_afterAll endpoint acts] at hlt
  obtain ⟨first, hfirst, -, hsame⟩ :=
    connection_afterAll h.isSound (List.getElem?_eq_getElem hlt)
  refine ⟨_, List.getElem?_eq_getElem hlt, ?_⟩
  obtain rfl := Option.some.inj (hconnection.symm.trans hfirst)
  rw [hsame, hframePath]

/-- A sink that keeps up has written every frame that was accepted, and nothing else. -/
theorem Carries.sent_eq_accepted (hnew : endpoint.IsNew kind)
    (h : endpoint.Carries source index sink before during stream) :
    (endpoint.traffic index (before ++ during)).sent =
      (encodeAll (fresh kind) (endpoint.ledger index sink (before ++ during)).accepted).output := by
  obtain ⟨later, hlater, hpath⟩ := afterAll_framePath hnew (before ++ during) h.isSink
  obtain ⟨queue, hqueue, haccounts⟩ := accounts_afterAll hnew hlater hpath
  obtain ⟨hlost, hinterrupted, hsends⟩ :=
    sends_afterAll hnew h.nothing_before h.stays_up hlater hpath
  have hdiscarded := discarded_eq_nil h.isOpen index sink
  have hdropped : queue.dropped = 0 := by
    have hnone := h.not_dropped
    rwa [FanOut.dropped, hqueue] at hnone
  have hempty : queue.frames = [] := by
    have hdrained := h.drained
    rw [hqueue] at hdrained
    exact Option.some.inj hdrained
  obtain ⟨codec, hwaits⟩ := h.waits
  rw [link?, hlater, Option.bind_some] at hwaits
  have hhand : later.life.inHand = [] := by
    obtain ⟨run, hlife⟩ := Life.running_of_link? hwaits
    rw [hlife]
    rfl
  -- Every accepted frame was queued, and there is no other way left that it can have taken.
  have hlength : (endpoint.ledger index sink (before ++ during)).written.length =
      (endpoint.ledger index sink (before ++ during)).accepted.length := by
    have hbalance := haccounts.balance
    rw [haccounts.queued_eq, haccounts.framesSent_eq, haccounts.framesLost_eq, hlost,
      hinterrupted, hdiscarded, hdropped, hempty, hhand] at hbalance
    simp only [List.length_nil] at hbalance
    omega
  have hwritten := haccounts.balances.written_sublist.eq_of_length hlength
  rw [← hwritten, hsends _ hwaits]

/-- What a sink that keeps up has sent is what the pieces come to that the source has read, as
far as the filter lets it pass. -/
theorem Carries.sent_eq (hnew : endpoint.IsNew kind)
    (h : endpoint.Carries source index sink before during stream) :
    sentIn (endpoint.steps index before) = .empty ∧
      sentIn (endpoint.steps index (before ++ during)) =
        (encodeAll (fresh kind)
          (((fresh kind).feed (endpoint.traffic source (before ++ during)).read).frames.filter
            endpoint.fanOut.filter.allows)).output := by
  obtain ⟨connection, hconnection, -⟩ := Option.map_eq_some_iff.mp h.isSink
  obtain ⟨early, hearly, hsink⟩ := afterAll_framePath hnew before h.isSink
  obtain ⟨later, hlater, hsource⟩ :=
    afterAll_framePath hnew (before ++ during) h.isSource
  have hnothing := (sends_of_nothing hnew h.nothing_before hearly hsink).1
  have hsent := h.sent_eq_accepted hnew
  have hpublished := (isFed_afterAll hnew hlater hsource h.opened_le).published_eq
  rw [(accepted_eq hnew h.isOnlySource h.isOpen index sink).1, hpublished] at hsent
  rw [sentIn_steps hnew hconnection, sentIn_steps hnew hconnection]
  exact ⟨hnothing, hsent⟩

/-- However the stream is cut into pieces, and whatever else happens in between, the link of a
sink that keeps up takes all of it: a raw stream as it is, and of a stream of tags the complete
ones that the filter lets pass, in canonical form. -/
theorem sent_of_carries (parent : ComponentPath) (place : Nat) (config : EndpointConfig)
    (h : (ofConfig parent place config).Carries source index sink before during stream) :
    let sent := sentIn ((ofConfig parent place config).steps index (before ++ during))
    sentIn ((ofConfig parent place config).steps index before) = .empty ∧
      (config.codec = .raw → sent = stream) ∧
      (config.codec = .flv → ((fresh .flv).drain stream).error? = none →
        (∃ tags tail, Parses stream tags tail) ∧
          ∀ tags tail, Parses stream tags tail →
            sent = writtenStream
              (tags.filter fun tag => (StreamFilter.ofConfig config).allows tag.frame)) := by
  intro sent
  obtain ⟨hnothing, hsent⟩ := h.sent_eq (ofConfig_isNew parent place config)
  have hfilter : (ofConfig parent place config).fanOut.filter = .ofConfig config := rfl
  rw [hfilter] at hsent
  refine ⟨hnothing, ?_, ?_⟩
  · intro hraw
    rw [hraw] at hsent
    rw [← h.read_eq]
    exact hsent.trans (encodeAll_feed_raw _ _)
  · intro hflv haccepted
    rw [hflv] at hsent
    refine ⟨parses_of_drain haccepted, fun tags tail hparses => ?_⟩
    obtain ⟨codec, hdrain⟩ := drain_of_parses hparses
    have hfeed : (fresh .flv).feed
        ((ofConfig parent place config).traffic source (before ++ during)).read =
          ⟨tags.map Tag.frame, none, codec, tail⟩ := by
      rw [← hdrain, ← h.read_eq]
      apply feed_eq_drain
      rw [h.read_eq]
      exact haccepted
    rw [hfeed, List.filter_map, encodeAll_frames] at hsent
    exact hsent

/-- A source and a sink of tags, none of them video. -/
def mutedConfig : EndpointConfig where
  role := .client
  direction := .input
  addresses := [.plain "source:1", .detailed "sink:1" none (some .output)]
  video := false
  codec := .flv

/-- Both links come up. -/
def linkingActs : List EndpointAct :=
  [.connection 0 (.run .relay false), .connection 1 (.run .relay false),
    .connection 1 (.poll false (.dialled (.ok ()))),
    .connection 0 (.poll false (.dialled (.ok ())))]

/-- A stream arrives in three pieces, and what passes the filter is sent in two. -/
def relayingActs : List EndpointAct :=
  [.connection 0 (.poll false (.received (.ok (unevenStream.extract 0 7)))),
    .connection 0 (.poll false (.received (.ok (unevenStream.extract 7 33)))),
    .connection 1 (.poll false .woken),
    .connection 0 (.poll false (.received (.ok (unevenStream.extract 33 49)))),
    .connection 1 (.poll false .woken),
    .connection 1 (.poll false (.wrote (.ok 20))),
    .connection 1 (.poll false (.wrote (.ok 8)))]

/-- The file header, and the one tag of the stream that passes. -/
def passedStream : ByteArray :=
  [0x46, 0x4C, 0x56, 1, 5, 0, 0, 0, 9, 0, 0, 0, 0,
    0xEF, 0, 0, 0, 0, 0, 0, 0, 1, 2, 3, 5, 6, 7, 8].toByteArray

theorem carries_unevenStream :
    (ofConfig .root 0 mutedConfig).Carries 0 1 0 linkingActs relayingActs unevenStream where
  isSource := by decide +kernel
  opened_le := by decide +kernel
  isOnlySource := by
    intro other connection hconnection hpath hne
    have hsources : ∀ place < 2, place ≠ 0 →
        (ofConfig .root 0 mutedConfig).connections[place]?.map (·.framePath) ≠ some .publish := by
      decide +kernel
    refine absurd ?_ (hsources other (List.getElem?_eq_some_iff.mp hconnection).1 hne)
    rw [hconnection, ← hpath]
    rfl
  read_eq := by decide +kernel
  isSink := by decide +kernel
  nothing_before := by decide +kernel
  stays_up := by
    intro acts hacts
    have hall : ∀ acts ∈ relayingActs.inits,
        ((ofConfig .root 0 mutedConfig).afterAll (linkingActs ++ acts)).link? 1 ≠ none := by
      decide +kernel
    exact hall acts ((List.mem_inits _ _).mpr hacts)
  not_dropped := by decide +kernel
  isOpen := by decide +kernel
  drained := by decide +kernel
  waits := ⟨.flv ⟨.start, true⟩, by decide +kernel⟩

theorem sent_of_carries_unevenStream :
    let endpoint := ofConfig .root 0 mutedConfig
    endpoint.Carries 0 1 0 linkingActs relayingActs unevenStream ∧
      ((fresh .flv).drain unevenStream).error? = none ∧
      sentIn (endpoint.steps 1 (linkingActs ++ relayingActs)) = passedStream := by
  intro endpoint
  obtain ⟨codec, hdrain⟩ := drain_of_parses parses_unevenStream
  have haccepted : ((fresh .flv).drain unevenStream).error? = none :=
    congrArg Drained.error? hdrain
  have hsent := sent_of_carries .root 0 mutedConfig carries_unevenStream
  have htags := (hsent.2.2 rfl haccepted).2 _ _ parses_unevenStream
  exact ⟨carries_unevenStream, haccepted, htags.trans (by decide +kernel)⟩

end Endpoint

end LiveRelay
