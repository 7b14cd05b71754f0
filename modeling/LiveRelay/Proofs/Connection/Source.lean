import LiveRelay.Proofs.Codec.Reading
import LiveRelay.Proofs.Connection.Links

/-! # What a source publishes

A source publishes the frames of one link after the other, and those of a link are a matter
of what has been read from it alone: a frame for every read on a raw link, and on others the
frames that the bytes read as. So nothing that a link leaves unfinished is seen again.
-/

namespace LiveRelay

open LinkCodec Flv

/-- The pieces that are read in these steps. -/
def readIn (steps : List Step) : List ByteArray := steps.flatMap (·.traffic.read)

/-- The frames that are published in these steps. -/
def publishedIn (steps : List Step) : List Frame := steps.flatMap (·.handling.published)

/-- The frames among those that the filter rejects. -/
def rejectedIn (steps : List Step) : List Frame :=
  steps.flatMap fun step => step.fanOut.rejects step.handling.published

namespace Step

variable {step : Step}

theorem isEmpty_of_mem_read {data : ByteArray} (h : data ∈ step.traffic.read) :
    data.isEmpty = false := by
  unfold traffic Connection.traffic Await.traffic at h
  repeat' split at h
  all_goals simp_all

/-- A step in which a source reads publishes what the codec makes of it. Then the link is still
up, and the codec has no more than that, or it has ended. -/
theorem feeds {codec : LinkCodec} {pending : ByteArray}
    (hlink : step.before.life.link? = some (.reading codec pending)) (frames : List Frame) :
    let reading := step.traffic.read.foldl Drained.feed ⟨frames, none, codec, pending⟩
    (reading.frames = frames ++ step.handling.published ∧ step.after.life.link? = none) ∨
      ∃ later left, reading = ⟨frames ++ step.handling.published, none, later, left⟩ ∧
        step.after.life.link? = some (.reading later left) := by
  have hflow := step.flows
  rw [hlink] at hflow
  generalize step.after.life.link? = after at hflow ⊢
  generalize step.traffic = traffic at hflow ⊢
  generalize step.handling = handling at hflow ⊢
  cases hflow with
  | rests => exact .inr ⟨codec, pending, by rw [List.append_nil, List.foldl_nil], rfl⟩
  | ends => exact .inl ⟨(List.append_nil frames).symm, rfl⟩
  | breaks => exact .inl ⟨rfl, rfl⟩
  | reads herror =>
      refine .inr ⟨_, _, ?_, rfl⟩
      simp only [List.foldl_cons, List.foldl_nil, Drained.feed, herror]

/-- Where a malformed stream is reported, it is the bytes just read that made it so. -/
theorem error_of_reports (hcoherent : step.before.Coherent) {codec : LinkCodec}
    {pending : ByteArray} (hlink : step.before.life.link? = some (.reading codec pending))
    {address reason : String} (h : step.Reports (.codec address reason)) (frames : List Frame) :
    ∃ error, (step.traffic.read.foldl Drained.feed ⟨frames, none, codec, pending⟩).error? =
      some error ∧ reason = error.message := by
  obtain ⟨run, await, signal, hlife, hact, hends⟩ := losesLink_of_reports hcoherent h rfl
  cases hends with
  | @malformed codec' pending' data error hdata herror =>
      rw [hlife] at hlink
      obtain ⟨rfl, rfl⟩ : codec' = codec ∧ pending' = pending := by
        simpa [Life.link?, Await.hasLink] using hlink
      have hread : step.traffic.read = [data] := by
        simp [traffic, Connection.traffic, hlife, hact, Await.traffic, hdata]
      refine ⟨error, ?_, rfl⟩
      rw [hread]
      exact herror

end Step

namespace Connection

variable {connection : Connection}

/-- While one link of a source is up, it publishes what the codec makes of the pieces read. -/
theorem publishedIn_eq_feed (hcoherent : connection.Coherent) {codec : LinkCodec}
    {pending : ByteArray} (hlink : connection.life.link? = some (.reading codec pending))
    {occasions : List Occasion}
    (hlinked : ∀ step ∈ connection.history occasions, step.isLinked = true)
    (frames : List Frame) :
    let steps := connection.history occasions
    let reading := (readIn steps).foldl Drained.feed ⟨frames, none, codec, pending⟩
    reading.frames = frames ++ publishedIn steps ∧
      ∀ step ∈ steps, ∀ address reason, step.Reports (.codec address reason) →
        ∃ error, reading.error? = some error ∧ reason = error.message := by
  induction occasions generalizing connection codec pending frames with
  | nil =>
      refine ⟨(List.append_nil _).symm, ?_⟩
      intro step hstep
      cases hstep
  | cons occasion occasions ih =>
      let step : Step := ⟨connection, occasion⟩
      have hlater : ∀ other ∈ step.after.history occasions, other.isLinked = true :=
        fun other hother => hlinked other (List.mem_cons_of_mem _ hother)
      have hfirst := fun address reason (hreports : step.Reports (.codec address reason)) =>
        Step.error_of_reports hcoherent hlink hreports frames
      simp only [history, readIn, publishedIn, List.flatMap_cons, List.foldl_append]
      rcases step.feeds hlink frames with ⟨hframes, hnone⟩ | ⟨later, left, hreading, hsome⟩
      · obtain rfl := eq_nil_of_isLinked hnone hlater
        refine ⟨hframes.trans (by simp [history, step]), fun other hother => ?_⟩
        obtain rfl := List.mem_singleton.mp hother
        exact hfirst
      · obtain ⟨hframes, herrors⟩ := ih (Step.after_coherent hcoherent) hsome hlater
          (frames ++ step.handling.published)
        rw [hreading] at hfirst ⊢
        refine ⟨hframes.trans (List.append_assoc _ _ _), fun other hother => ?_⟩
        rcases List.mem_cons.mp hother with rfl | hother
        · intro address reason hreports
          obtain ⟨error, herror, -⟩ := hfirst address reason hreports
          cases herror
        · exact herrors other hother

/-- What a link of a source publishes is what a codec of its own makes of what it reads. -/
theorem publishedIn_of_mem_links (hcoherent : connection.Coherent)
    (hpath : connection.framePath = .publish) {occasions : List Occasion} {link : List Step}
    (h : link ∈ links (connection.history occasions)) :
    let reading := (fresh connection.config.codec).feed (readIn link)
    publishedIn link = reading.frames ∧
      ∀ step ∈ link, ∀ address reason, step.Reports (.codec address reason) →
        ∃ error, reading.error? = some error ∧ reason = error.message := by
  obtain ⟨earlier, during, later, rfl, rfl, hlink, hlinked⟩ := history_of_mem_links hcoherent h
  rw [hpath] at hlink
  obtain ⟨hframes, herrors⟩ :=
    publishedIn_eq_feed (afterAll_coherent hcoherent earlier) hlink hlinked []
  exact ⟨hframes.symm, herrors⟩

/-- Every read of a raw link is published as it is. -/
theorem publishedIn_of_raw (hcoherent : connection.Coherent)
    (hpath : connection.framePath = .publish) (hraw : connection.config.codec = .raw)
    {occasions : List Occasion} {link : List Step}
    (h : link ∈ links (connection.history occasions)) :
    publishedIn link = (readIn link).map .raw ∧
      ∀ step ∈ link, ∀ address reason, ¬ step.Reports (.codec address reason) := by
  obtain ⟨hframes, herrors⟩ := publishedIn_of_mem_links hcoherent hpath h
  have hpieces : ∀ data ∈ readIn link, data.isEmpty = false := by
    intro data hdata
    obtain ⟨step, -, hread⟩ := List.mem_flatMap.mp hdata
    exact Step.isEmpty_of_mem_read hread
  rw [hraw, fresh, feed_raw_of_nonempty hpieces] at hframes herrors
  refine ⟨hframes, ?_⟩
  intro step hstep address reason hreports
  obtain ⟨error, herror, -⟩ := herrors step hstep address reason hreports
  cases herror

/-- What the bytes of a link of tags read as is published, and if they are malformed, that is
what is reported. -/
theorem publishedIn_of_flv (hcoherent : connection.Coherent)
    (hpath : connection.framePath = .publish) (hflv : connection.config.codec = .flv)
    {occasions : List Occasion} {link : List Step}
    (h : link ∈ links (connection.history occasions)) :
    ∃ (fault? : Option StreamFault) (rest : ByteArray),
      Reads (joined (readIn link)) (publishedIn link) fault? rest ∧
        ∀ step ∈ link, ∀ address reason, step.Reports (.codec address reason) →
          ∃ fault, fault? = some fault ∧ reason = (CodecError.invalid fault).message := by
  obtain ⟨hframes, herrors⟩ := publishedIn_of_mem_links hcoherent hpath h
  obtain ⟨fault?, rest, hreads, herror⟩ := reads_feed (readIn link)
  rw [hflv] at hframes herrors
  refine ⟨fault?, rest, hframes ▸ hreads, fun step hstep address reason hreports => ?_⟩
  obtain ⟨error, hsome, rfl⟩ := herrors step hstep address reason hreports
  rw [herror, Option.map_eq_some_iff] at hsome
  obtain ⟨fault, hfault, rfl⟩ := hsome
  exact ⟨fault, hfault, rfl⟩

/-- A failure of a link is reported by a step that finds that link up. -/
theorem mem_links_of_reports (hcoherent : connection.Coherent)
    (hnone : connection.life.link? = none) {occasions : List Occasion} {step : Step}
    (hstep : step ∈ connection.history occasions) {failure : ConnectionError}
    (hfailure : failure.isLinkFailure = true) (hreports : step.Reports failure) :
    ∃ link ∈ links (connection.history occasions), step ∈ link := by
  rw [← List.mem_flatten, flatten_links hnone, List.mem_filter]
  obtain ⟨run, await, signal, hlife, -, hends⟩ :=
    Step.losesLink_of_reports (before_coherent hcoherent hstep) hreports hfailure
  refine ⟨hstep, ?_⟩
  have hactive := hends.state_eq
  rw [Step.isLinked, hlife]
  cases await <;> first | rfl | cases hactive

/-- That its peer has closed the link is reported when that has happened, and only then. -/
theorem act_of_peerClosed (hcoherent : connection.Coherent) {occasions : List Occasion}
    {step : Step} (hstep : step ∈ connection.history occasions) {address : String}
    (hreports : step.Reports (.peerClosed address)) :
    step.act = .poll false (.received (.ok .empty)) := by
  obtain ⟨run, await, signal, -, hact, hends⟩ :=
    Step.losesLink_of_reports (before_coherent hcoherent hstep) hreports rfl
  cases hends with
  | peerLeft hreads hempty =>
      rw [hact]
      congr
      rw [← ByteArray.size_eq_zero_iff]
      simpa [ByteArray.isEmpty] using hempty

/-- A source does not look at the fan-out, and takes nothing from it. -/
theorem fanOut_of_publish (hpath : connection.framePath = .publish) (fanOut before : FanOut)
    (act : Act) : (connection.act fanOut act).fanOut =
      fanOut.publishAll (connection.handling before act).published := by
  have hsame : connection.handling fanOut act = connection.handling before act := by
    unfold handling
    split
    next =>
      unfold Await.handling
      rw [hpath]
    next => rfl
    next => rfl
  rcases (connection.act_handled fanOut act).fanOut_eq with ⟨-, hfanOut⟩ | ⟨-, _, _, hsink, -⟩
  · rw [hfanOut, hsame]
  · rw [hpath] at hsink
    cases hsink

/-- What a source does in the course of its links, and what it has counted in the end. -/
structure PublishesLinks (connection : Connection) (occasions : List Occasion) : Prop where
  /-- These are the frames that are offered to the fan-out, whatever that is like. -/
  fanOut_eq : ∀ step ∈ connection.history occasions, ∀ fanOut : FanOut,
    (step.before.act fanOut step.act).fanOut = fanOut.publishAll step.handling.published
  published_eq : publishedIn (connection.history occasions) =
    (links (connection.history occasions)).flatMap publishedIn
  /-- On a raw link every read is a frame. -/
  raw : connection.config.codec = .raw → ∀ link ∈ links (connection.history occasions),
    publishedIn link = (readIn link).map .raw
  /-- On a link of tags the frames are those that its bytes read as. -/
  flv : connection.config.codec = .flv → ∀ link ∈ links (connection.history occasions),
    ∃ (fault? : Option StreamFault) (rest : ByteArray),
      Reads (joined (readIn link)) (publishedIn link) fault? rest ∧
        ∀ step ∈ link, ∀ address reason, step.Reports (.codec address reason) →
          ∃ fault, fault? = some fault ∧ reason = (CodecError.invalid fault).message
  /-- Before a stream turns out to be malformed, nothing of it has been published. -/
  malformed : ∀ link ∈ links (connection.history occasions), ∀ step ∈ link,
    ∀ address reason, step.Reports (.codec address reason) → publishedIn link = []
  /-- A failure of a link is reported by a step that finds that link up. -/
  reported : ∀ step ∈ connection.history occasions, ∀ failure : ConnectionError,
    failure.isLinkFailure = true → step.Reports failure →
      ∃ link ∈ links (connection.history occasions), step ∈ link
  peerClosed : ∀ step ∈ connection.history occasions, ∀ address,
    step.Reports (.peerClosed address) → step.act = .poll false (.received (.ok .empty))
  linksEstablished_eq : (connection.afterAll occasions).stats.linksEstablished =
    (links (connection.history occasions)).length
  bytesReceived_eq : (connection.afterAll occasions).stats.bytesReceived =
    ((readIn (connection.history occasions)).map ByteArray.size).sum
  framesReceived_eq : (connection.afterAll occasions).stats.framesReceived =
    (publishedIn (connection.history occasions)).length
  framesFiltered_eq : (connection.afterAll occasions).stats.framesFiltered =
    (rejectedIn (connection.history occasions)).length

/-- Whatever happens to a source, the frames it publishes are those of its links, each on its
own, and its counters agree with that. -/
theorem ofConfig_publishesLinks (parent : ComponentPath) (config : ConnectionConfig)
    (occasions : List Occasion) :
    (ofConfig parent config .publish).PublishesLinks occasions := by
  let source := ofConfig parent config .publish
  have hcoherent : source.Coherent := ofConfig_coherent parent config .publish
  have hnone : source.life.link? = none := rfl
  have hbefore : ∀ step ∈ source.history occasions, step.before.Coherent ∧
      step.before.framePath = .publish ∧
      ∀ codec, step.before.life.link? ≠ some (.watching codec) := by
    intro step hstep
    refine ⟨before_coherent hcoherent hstep, ?_⟩
    obtain ⟨first, hfirst⟩ := before_eq_afterAll hstep
    rw [hfirst]
    refine ⟨afterAll_framePath hcoherent first, fun codec hwatching => ?_⟩
    exact fits_afterAll hcoherent (by rw [hnone]; nofun) first _ hwatching
  have hlinks := fun {link : List Step} (hlink : link ∈ links (source.history occasions)) =>
    publishedIn_of_mem_links hcoherent rfl hlink
  constructor
  case fanOut_eq =>
    intro step hstep fanOut
    exact fanOut_of_publish (hbefore step hstep).2.1 fanOut step.fanOut step.act
  case published_eq =>
    refine (flatMap_links hnone occasions fun step hidle => ?_).symm
    rw [(Step.of_isLinked_eq_false hidle).1]
  case raw => exact fun hraw link hlink => (publishedIn_of_raw hcoherent rfl hraw hlink).1
  case flv => exact fun hflv link hlink => publishedIn_of_flv hcoherent rfl hflv hlink
  case malformed =>
    intro link hlink step hstep address reason hreports
    cases hcodec : config.codec with
    | raw =>
        exact absurd hreports
          ((publishedIn_of_raw hcoherent rfl hcodec hlink).2 step hstep address reason)
    | flv =>
        obtain ⟨fault?, rest, hreads, hfaults⟩ := publishedIn_of_flv hcoherent rfl hcodec hlink
        obtain ⟨fault, rfl, -⟩ := hfaults step hstep address reason hreports
        exact hreads.frames_eq_nil
  case reported =>
    exact fun step hstep failure hfailure =>
      mem_links_of_reports hcoherent hnone hstep hfailure
  case peerClosed => exact fun step hstep address => act_of_peerClosed hcoherent hstep
  case linksEstablished_eq =>
    rw [length_links, afterAll_total (·.stats.linksEstablished) source occasions
      fun step _ => step.counted.linksEstablished_eq]
    exact Nat.zero_add _
  case bytesReceived_eq =>
    rw [afterAll_total (·.stats.bytesReceived) source occasions
      fun step hstep => step.counted.bytesReceived_eq (hbefore step hstep).2.2]
    rw [readIn, List.map_flatMap, List.flatMap_def, List.sum_flatten, List.map_map]
    exact Nat.zero_add _
  case framesReceived_eq =>
    rw [afterAll_total (·.stats.framesReceived) source occasions
      fun step _ => step.counted.framesReceived_eq, publishedIn, List.length_flatMap]
    exact Nat.zero_add _
  case framesFiltered_eq =>
    rw [afterAll_total (·.stats.framesFiltered) source occasions
      fun step _ => step.counted.framesFiltered_eq, rejectedIn, List.length_flatMap]
    exact Nat.zero_add _

end Connection

end LiveRelay
