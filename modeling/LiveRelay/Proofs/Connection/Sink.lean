import LiveRelay.Proofs.Connection.Offer

/-! # What a sink writes

On every link a sink writes the frames that it takes from its queue one behind the other, with a
codec of that link, and skips those that cannot be written. When the link fails, or the run is
cancelled, at most one of them has been written in part, and that is the last that the link
has taken.
-/

namespace LiveRelay

open LinkCodec Flv

/-- The frames that are taken from the queue in these steps. -/
def takenIn (steps : List Step) : List Frame := steps.flatMap (·.handling.taken)

/-- The frames that are written to the end in these steps. -/
def writtenIn (steps : List Step) : List Frame := steps.flatMap (·.handling.written)

/-- The frames that are given up because the link fails. -/
def lostIn (steps : List Step) : List Frame := steps.flatMap (·.handling.lost)

/-- The frames that are given up because the run is cancelled. -/
def interruptedIn (steps : List Step) : List Frame := steps.flatMap (·.handling.interrupted)

/-- The frame that is still being written after the last of these steps. -/
def inHandAfter (steps : List Step) : List Frame :=
  steps.getLast?.elim [] fun step => step.after.life.inHand

/-- The frames that have been begun in these steps and not written to the end. -/
def unfinishedIn (steps : List Step) : List Frame :=
  lostIn steps ++ interruptedIn steps ++ inHandAfter steps

section Cons

variable (step : Step) (steps : List Step)

@[simp] theorem takenIn_nil : takenIn [] = [] := rfl

@[simp] theorem writtenIn_nil : writtenIn [] = [] := rfl

@[simp] theorem lostIn_nil : lostIn [] = [] := rfl

@[simp] theorem interruptedIn_nil : interruptedIn [] = [] := rfl

@[simp] theorem takenIn_cons : takenIn (step :: steps) = step.handling.taken ++ takenIn steps := rfl

@[simp] theorem writtenIn_cons :
    writtenIn (step :: steps) = step.handling.written ++ writtenIn steps := rfl

@[simp] theorem lostIn_cons : lostIn (step :: steps) = step.handling.lost ++ lostIn steps := rfl

@[simp] theorem interruptedIn_cons :
    interruptedIn (step :: steps) = step.handling.interrupted ++ interruptedIn steps := rfl

end Cons

/-- The link has taken all of the written frames, and of the one that is unfinished a part. -/
inductive Carried (kind : CodecKind) (written : List Frame) : List Frame → ByteArray → Prop
  | whole {codec : LinkCodec} {done : ByteArray}
      (h : encodeAll (fresh kind) written = ⟨.ok (), codec, done⟩) : Carried kind written [] done
  | partly {codec later : LinkCodec} {frame : Frame} {done part rest : ByteArray}
      (h : encodeAll (fresh kind) written = ⟨.ok (), codec, done⟩)
      (hencode : codec.encode frame .empty = ⟨.ok (), later, part ++ rest⟩) :
      Carried kind written [frame] (done ++ part)

/-- The size, encoded, of the frame that is written to the end in the step. -/
def Step.finishedSize (step : Step) : Nat :=
  if step.handling.written = [] then 0 else step.before.life.sizeInHand

/-- A frame that is taken is written, or skipped because it cannot be. -/
theorem Handling.ofSend_cases (codec : LinkCodec) (frame : Frame) :
    (codec.kind.CanWrite frame ∧ ∃ later output,
      codec.encode frame .empty = ⟨.ok (), later, output⟩ ∧
        ofSend codec frame =
          { taken := [frame], written := if output.isEmpty then [frame] else [] }) ∨
    (¬ codec.kind.CanWrite frame ∧
      ofSend codec frame = { taken := [frame], skipped := [frame] }) := by
  unfold ofSend
  rcases codec.encode_cases frame .empty with
    ⟨hcan, later, output, hencode⟩ | ⟨hcan, error, herror⟩
  · exact .inl ⟨hcan, later, output, hencode, by simp only [hencode]⟩
  · exact .inr ⟨hcan, by simp only [herror]⟩

/-- What the link of a sink does in one step, when these frames have been written before. -/
structure Step.Carries (step : Step) (kind : CodecKind) (written : List Frame)
    (sent : ByteArray) : Prop where
  frames_eq : step.before.life.inHand ++ step.handling.taken.filter (kind.CanWrite ·) =
    step.handling.written ++ step.handling.lost ++ step.handling.interrupted ++
      step.after.life.inHand
  size_eq : (encodeAll (fresh kind) (written ++ step.handling.written)).output.size =
    (encodeAll (fresh kind) written).output.size + step.finishedSize
  later : (∃ after, step.after.life.link? = some after ∧
      after.Sends kind (written ++ step.handling.written) (sent ++ step.traffic.sent) ∧
      step.handling.lost = [] ∧ step.handling.interrupted = []) ∨
    (step.after.life.link? = none ∧ step.handling.taken = [] ∧ step.handling.written = [] ∧
      step.traffic.sent = .empty)

/-- While a sink has a link, it goes on with it as `Carries` has it. -/
theorem Step.carries {step : Step} {kind : CodecKind} {sink : Nat} {await : Await}
    {written : List Frame} {sent : ByteArray} (hkind : step.before.config.codec = kind)
    (hpath : step.before.framePath = .deliver sink)
    (hlink : step.before.life.link? = some await) (hsends : await.Sends kind written sent) :
    step.Carries kind written sent := by
  have hflow := step.flows
  have hhandled := step.handled.inHand_eq
  have hafterHand : step.turn.connection = step.after := rfl
  obtain ⟨run, hlife⟩ := Life.running_of_link? hlink
  rw [hkind, hpath, hlink] at hflow
  have hlater := hflow.sends hsends
  rw [hafterHand] at hhandled
  constructor
  case frames_eq =>
    generalize step.after.life.inHand = handAfter at hhandled ⊢
    generalize step.after.life.link? = after at hflow
    generalize step.traffic = traffic at hflow
    generalize step.handling = handling at hflow hhandled ⊢
    cases hflow with
    | rests => simpa using hhandled
    | ends => simpa using hhandled
    | reads => exact hsends.elim
    | breaks => exact hsends.elim
    | writes => simpa using hhandled
    | @takes codec _ frame =>
        have hcodec : codec.kind = kind := by
          have hsame := kind_encodeAll (fresh kind) written
          rw [show encodeAll (fresh kind) written = ⟨.ok (), codec, sent⟩ from hsends] at hsame
          exact hsame.trans (kind_fresh kind)
        have hhand : step.before.life.inHand = [] := by
          rw [hlife]
          rfl
        rw [hhand] at hhandled ⊢
        rcases Handling.ofSend_cases codec frame with ⟨hcan, _, output, -, hsend⟩ | ⟨hcan, hsend⟩
        · rw [hcodec] at hcan
          rw [hsend] at hhandled ⊢
          simpa [hcan] using hhandled
        · rw [hcodec] at hcan
          rw [hsend] at hhandled ⊢
          simpa [hcan] using hhandled
  case size_eq =>
    generalize step.after.life.link? = after at hflow
    generalize step.traffic = traffic at hflow
    unfold Step.finishedSize
    generalize step.handling = handling at hflow ⊢
    rw [hlife]
    cases hflow with
    | rests => simp
    | ends => simp
    | reads => exact hsends.elim
    | breaks => exact hsends.elim
    | @takes codec _ frame =>
        have hdone : encodeAll (fresh kind) written = ⟨.ok (), codec, sent⟩ := hsends
        rcases Handling.ofSend_cases codec frame with
          ⟨-, later, output, hencode, hsend⟩ | ⟨-, hsend⟩
        · rw [hsend]
          by_cases hempty : output.isEmpty
          · have hsize : output.size = 0 := by simpa [ByteArray.isEmpty] using hempty
            simp only [if_pos hempty]
            rw [encodeAll_append_of_encode hdone hencode, hdone, ByteArray.size_append, hsize]
            rfl
          · simp [hempty]
        · simp [hsend]
    | @writes codec frame size taken rest left hleft =>
        obtain ⟨earlier, done, part, hdone, hencode, rfl, rfl⟩ := hsends
        by_cases hempty : left.isEmpty
        · simp only [if_pos hempty]
          rw [encodeAll_append_of_encode hdone hencode, hdone, ByteArray.size_append]
          rfl
        · simp [hempty]
  case later =>
    generalize step.after.life.link? = after at hflow hlater ⊢
    cases after with
    | some after => exact .inl ⟨after, rfl, hlater after rfl⟩
    | none =>
        right
        generalize step.traffic = traffic at hflow ⊢
        generalize step.handling = handling at hflow ⊢
        cases hflow with
        | ends => exact ⟨rfl, rfl, rfl, rfl⟩
        | breaks => exact hsends.elim

theorem Await.Sends.carried {await : Await} {kind : CodecKind} {written : List Frame}
    {sent : ByteArray} (h : await.Sends kind written sent) (run : Run) :
    Carried kind written (Life.running run await).inHand sent := by
  cases await with
  | watching codec => exact .whole h
  | writing codec frame size rest =>
      obtain ⟨earlier, done, part, hdone, hencode, rfl, -⟩ := h
      exact .partly hdone hencode
  | _ => exact h.elim

namespace Connection

variable {connection : Connection}

/-- As long as its link is up, a sink writes what it takes, and at the end of it at most one
frame is unfinished. -/
theorem carried_of_link {kind : CodecKind} {sink : Nat} (hcoherent : connection.Coherent)
    (hkind : connection.config.codec = kind) (hpath : connection.framePath = .deliver sink)
    {await : Await} (hlink : connection.life.link? = some await) {written : List Frame}
    {sent : ByteArray} (hsends : await.Sends kind written sent) {occasions : List Occasion}
    (hlinked : ∀ step ∈ connection.history occasions, step.isLinked = true) :
    let steps := connection.history occasions
    let unfinished :=
      lostIn steps ++ interruptedIn steps ++ (connection.afterAll occasions).life.inHand
    connection.life.inHand ++ (takenIn steps).filter (kind.CanWrite ·) =
        writtenIn steps ++ unfinished ∧
      Carried kind (written ++ writtenIn steps) unfinished
        (sent ++ sentFrom connection.life.left steps) ∧
      (encodeAll (fresh kind) (written ++ writtenIn steps)).output.size =
        (encodeAll (fresh kind) written).output.size + (steps.map Step.finishedSize).sum := by
  induction occasions generalizing connection await written sent with
  | nil =>
      obtain ⟨run, hlife⟩ := Life.running_of_link? hlink
      have hcarried := hsends.carried run
      rw [← hlife] at hcarried
      refine ⟨by simp [history, afterAll], ?_, by simp [history]⟩
      simpa [history, afterAll, sentFrom_nil] using hcarried
  | cons occasion occasions ih =>
      simp only [history, afterAll] at hlinked ⊢
      generalize hstep : Step.mk connection occasion = step at hlinked ⊢
      obtain rfl : step.before = connection := by rw [← hstep]
      have hcarries := step.carries hkind hpath hlink hsends
      have hframes := hcarries.frames_eq
      have hsize := hcarries.size_eq
      have hlater : ∀ other ∈ step.after.history occasions, other.isLinked = true :=
        fun other hother => hlinked other (List.mem_cons_of_mem _ hother)
      rcases hcarries.later with
        ⟨after, hafter, hnext, hlost, hinterrupted⟩ | ⟨hnone, htaken, hwritten, hsent⟩
      · obtain ⟨hframes', hcarried', hsize'⟩ := ih (Step.after_coherent hcoherent)
          ((congrArg (·.codec) (Step.after_config hcoherent)).trans hkind)
          ((Step.after_framePath hcoherent).trans hpath) hafter hnext hlater
        simp only [takenIn_cons, writtenIn_cons, lostIn_cons, interruptedIn_cons, sentFrom_cons,
          List.map_cons, List.sum_cons, hlost, hinterrupted, List.nil_append, List.append_nil]
          at hframes ⊢
        refine ⟨?_, ?_, ?_⟩
        · rw [List.filter_append, ← List.append_assoc, hframes, List.append_assoc, hframes']
          simp only [List.append_assoc]
        · rw [← List.append_assoc, ← ByteArray.append_assoc]
          exact hcarried'
        · rw [← List.append_assoc, hsize', hsize, Nat.add_assoc]
      · -- The link has ended, and what was in hand is given up.
        obtain rfl := eq_nil_of_isLinked hnone hlater
        have hhand := Life.inHand_of_link?_eq_none hnone
        obtain ⟨run, hlife⟩ := Life.running_of_link? hlink
        have hcarried := hsends.carried run
        simp only [htaken, hwritten, hhand, List.filter_nil, List.append_nil,
          List.nil_append] at hframes hsize
        rw [← hlife, hframes] at hcarried
        simp only [history, afterAll, takenIn_cons, writtenIn_cons, lostIn_cons, interruptedIn_cons,
          sentFrom_cons, List.map_cons, List.sum_cons, takenIn_nil, writtenIn_nil, lostIn_nil,
          interruptedIn_nil, sentFrom_nil, List.map_nil, List.sum_nil, htaken, hwritten, hhand, hsent,
          List.filter_nil, List.append_nil, List.nil_append, ByteArray.append_empty]
        exact ⟨hframes, hcarried, hsize⟩

theorem inHandAfter_history (h : connection.life.inHand = []) (occasions : List Occasion) :
    inHandAfter (connection.history occasions) = (connection.afterAll occasions).life.inHand := by
  induction occasions using List.reverseRecOn with
  | nil => exact h.symm
  | append_singleton occasions occasion =>
      rw [history_append, afterAll_append, inHandAfter]
      simp only [history, List.getLast?_append, List.getLast?_singleton]
      rfl

end Connection

/-- What the link of a sink takes of what it is asked to write, when all of its steps are
these. -/
structure WritesLink (kind : CodecKind) (link : List Step) : Prop where
  /-- What is taken is written in this order, except for what cannot be. -/
  frames_eq : (takenIn link).filter (kind.CanWrite ·) = writtenIn link ++ unfinishedIn link
  unfinished_le : (unfinishedIn link).length ≤ 1
  result_eq : (encodeAll (fresh kind) (writtenIn link)).result = .ok ()
  /-- Behind the written frames there is at most a part of the one that is unfinished. -/
  sent_eq : ∃ part rest,
    sentIn link = (encodeAll (fresh kind) (writtenIn link)).output ++ part ∧
      (encodeAll (fresh kind) (writtenIn link ++ unfinishedIn link)).output = sentIn link ++ rest
  /-- The file header stands in front of the first frame, and nowhere else. -/
  flv : kind = .flv → (encodeAll (fresh kind) (writtenIn link)).output =
    if writtenIn link = [] then .empty
    else fileHeader.toByteArray ++ joined ((writtenIn link).map tagOf)

theorem Carried.sent_eq {kind : CodecKind} {written unfinished : List Frame} {sent : ByteArray}
    (h : Carried kind written unfinished sent) :
    unfinished.length ≤ 1 ∧ (encodeAll (fresh kind) written).result = .ok () ∧
      ∃ part rest, sent = (encodeAll (fresh kind) written).output ++ part ∧
        (encodeAll (fresh kind) (written ++ unfinished)).output = sent ++ rest := by
  cases h with
  | whole h =>
      refine ⟨Nat.zero_le _, by rw [h], .empty, .empty, ?_, ?_⟩
      · rw [h, ByteArray.append_empty]
      · rw [List.append_nil, h, ByteArray.append_empty]
  | @partly codec later frame done part rest h hencode =>
      refine ⟨Nat.le_refl 1, by rw [h], part, rest, by rw [h], ?_⟩
      rw [encodeAll_append_of_encode h hencode, ByteArray.append_assoc]

namespace Connection

variable {connection : Connection}

/-- Every link of a sink is written to by a codec of its own. -/
theorem writesLink_of_mem_links {sink : Nat} (hcoherent : connection.Coherent)
    (hpath : connection.framePath = .deliver sink) {occasions : List Occasion}
    {link : List Step} (h : link ∈ links (connection.history occasions)) :
    WritesLink connection.config.codec link ∧
      (link.map Step.finishedSize).sum =
        (encodeAll (fresh connection.config.codec) (writtenIn link)).output.size := by
  obtain ⟨earlier, during, later, rfl, rfl, hlink, hlinked⟩ := history_of_mem_links hcoherent h
  rw [hpath] at hlink
  have hhand : (connection.afterAll earlier).life.inHand = [] := by
    obtain ⟨run, hlife⟩ := Life.running_of_link? hlink
    rw [hlife]
    rfl
  obtain ⟨hframes, hcarried, hsize⟩ := carried_of_link
    (afterAll_coherent hcoherent earlier)
    (congrArg (·.codec) (afterAll_config hcoherent earlier))
    ((afterAll_framePath hcoherent earlier).trans hpath) hlink
    (show Await.Sends _ [] .empty _ from rfl) hlinked
  rw [hhand, ← inHandAfter_history hhand, List.nil_append, ← unfinishedIn] at hframes
  have hleft : (connection.afterAll earlier).life.left = .empty :=
    (Life.left_of_link? hlink).trans (Await.left_opening _ _)
  rw [← inHandAfter_history hhand, List.nil_append, ByteArray.empty_append, hleft,
    ← unfinishedIn] at hcarried
  obtain ⟨hle, hresult, hsent⟩ := hcarried.sent_eq
  refine ⟨⟨hframes, hle, hresult, hsent, ?_⟩, ?_⟩
  · intro hflv
    have hencodable : ∀ frame ∈ writtenIn ((connection.afterAll earlier).history during),
        frame.IsEncodable := by
      intro frame hframe
      have hmem := List.mem_append_left
        (unfinishedIn ((connection.afterAll earlier).history during)) hframe
      rw [← hframes, List.mem_filter] at hmem
      rcases of_decide_eq_true hmem.2 with hraw | hencodable
      · rw [hflv] at hraw
        cases hraw
      · exact hencodable
    rw [hflv]
    exact (encodeAll_flv hencodable).2
  · rw [List.nil_append] at hsize
    exact (Nat.zero_add _).symm.trans hsize.symm

/-- What a sink does with the fan-out of its endpoint: it takes a frame from its queue, or
nothing. -/
theorem taken_cases {sink : Nat} (hpath : connection.framePath = .deliver sink)
    (hfits : ∀ await ∈ connection.life.link?, await.Fits (.deliver sink)) (fanOut : FanOut)
    (act : Act) :
    ((connection.handling fanOut act).taken = [] ∧ (connection.act fanOut act).fanOut = fanOut) ∨
      ∃ frame, (connection.handling fanOut act).taken = [frame] ∧
        fanOut.pop sink = (.frame frame, (connection.act fanOut act).fanOut) := by
  have hflow := connection.act_flows fanOut act
  rw [Flows, hpath] at hflow
  have hpublished := hflow.published_eq_nil hfits
  rcases (connection.act_handled fanOut act).fanOut_eq with
    ⟨htaken, hfanOut⟩ | ⟨-, other, frame, hother, htaken, hpop⟩
  · rw [hpublished] at hfanOut
    exact .inl ⟨htaken, hfanOut⟩
  · rw [hpath] at hother
    cases hother
    exact .inr ⟨frame, htaken, hpop⟩

/-- A frame is lost when its link has failed to take more of it. -/
theorem mem_lost_iff {fanOut : FanOut} {act : Act} {frame : Frame} :
    frame ∈ (connection.handling fanOut act).lost ↔
      ∃ run codec size rest, connection.life = .running run (.writing codec frame size rest) ∧
        ((∃ cause, act = .poll false (.wrote (.error cause))) ∨
          act = .poll false (.wrote (.ok 0))) := by
  constructor
  · intro h
    unfold handling at h
    split at h
    next run await signal hlife =>
      unfold Await.handling at h
      split at h
      next => split_ifs at h <;> cases h
      next codec =>
        split at h
        next => cases h
        next =>
          split at h
          next taken _ =>
            rcases Handling.ofSend_cases codec taken with ⟨-, _, _, -, hsend⟩ | ⟨-, hsend⟩
            · rw [hsend] at h
              cases h
            · rw [hsend] at h
              cases h
          next => cases h
      next codec other size rest outcome =>
        unfold Handling.ofWrote at h
        split at h
        next cause =>
          obtain rfl := List.mem_singleton.mp h
          exact ⟨run, codec, size, rest, hlife, .inl ⟨cause, rfl⟩⟩
        next =>
          obtain rfl := List.mem_singleton.mp h
          exact ⟨run, codec, size, rest, hlife, .inr rfl⟩
        next => cases h
      next => cases h
    next => cases h
    next => cases h
  · rintro ⟨run, codec, size, rest, hlife, ⟨cause, rfl⟩ | rfl⟩ <;>
      simp [handling, hlife, Await.handling, Handling.ofWrote]

/-- A frame is given up when the run is cancelled while it is being written. -/
theorem mem_interrupted_iff {fanOut : FanOut} {act : Act} {frame : Frame} :
    frame ∈ (connection.handling fanOut act).interrupted ↔
      ∃ run codec size rest signal,
        connection.life = .running run (.writing codec frame size rest) ∧
          act = .poll true signal := by
  constructor
  · intro h
    unfold handling at h
    split at h
    next =>
      rw [Await.interrupted_handling] at h
      cases h
    next run await signal hlife =>
      cases await with
      | writing codec other size rest =>
          obtain rfl := List.mem_singleton.mp h
          exact ⟨run, codec, size, rest, signal, hlife, rfl⟩
      | _ => cases h
    next => cases h
  · rintro ⟨run, codec, size, rest, signal, hlife, rfl⟩
    simp [handling, hlife, Life.inHand]

/-- What a sink does in the course of its links, and what it has counted in the end. -/
structure WritesLinks (connection : Connection) (sink : Nat) (occasions : List Occasion) :
    Prop where
  /-- What is taken comes from its queue, and nothing else is done to the fan-out. -/
  taken : ∀ step ∈ connection.history occasions,
    (step.handling.taken = [] ∧ step.turn.fanOut = step.fanOut) ∨
      ∃ frame, step.handling.taken = [frame] ∧
        step.fanOut.pop sink = (.frame frame, step.turn.fanOut)
  link : ∀ link ∈ links (connection.history occasions), WritesLink connection.config.codec link
  /-- A frame is lost when its link has failed to take more of it. -/
  lost : ∀ step ∈ connection.history occasions, ∀ frame, frame ∈ step.handling.lost ↔
    ∃ run codec size rest, step.before.life = .running run (.writing codec frame size rest) ∧
      ((∃ cause, step.act = .poll false (.wrote (.error cause))) ∨
        step.act = .poll false (.wrote (.ok 0)))
  /-- A frame is interrupted when the run is cancelled while it is being written. -/
  interrupted : ∀ step ∈ connection.history occasions, ∀ frame,
    frame ∈ step.handling.interrupted ↔
      ∃ run codec size rest signal,
        step.before.life = .running run (.writing codec frame size rest) ∧
          step.act = .poll true signal
  taken_eq : takenIn (connection.history occasions) =
    (links (connection.history occasions)).flatMap takenIn
  written_eq : writtenIn (connection.history occasions) =
    (links (connection.history occasions)).flatMap writtenIn
  lost_eq : lostIn (connection.history occasions) =
    (links (connection.history occasions)).flatMap lostIn
  /-- Nothing is handed to any link but by its own steps. -/
  sent_eq : sentIn (connection.history occasions) =
    joined ((links (connection.history occasions)).map sentIn)
  linksEstablished_eq : (connection.afterAll occasions).stats.linksEstablished =
    (links (connection.history occasions)).length
  framesSent_eq : (connection.afterAll occasions).stats.framesSent =
    (writtenIn (connection.history occasions)).length
  bytesSent_eq : (connection.afterAll occasions).stats.bytesSent =
    ((links (connection.history occasions)).map fun link =>
      (encodeAll (fresh connection.config.codec) (writtenIn link)).output.size).sum
  framesLost_eq : (connection.afterAll occasions).stats.framesLost =
    (lostIn (connection.history occasions)).length

/-- Whatever happens to a sink, it writes to each of its links on its own, and its counters
agree with that. -/
theorem ofConfig_writesLinks (parent : ComponentPath) (config : ConnectionConfig) (sink : Nat)
    (occasions : List Occasion) :
    (ofConfig parent config (.deliver sink)).WritesLinks sink occasions := by
  let connection := ofConfig parent config (.deliver sink)
  have hcoherent : connection.Coherent := ofConfig_coherent parent config (.deliver sink)
  have hnone : connection.life.link? = none := rfl
  have hidle : ∀ step : Step, step.isLinked = false → step.handling = {} :=
    fun step hstep => (Step.of_isLinked_eq_false hstep).1
  constructor
  case taken =>
    intro step hstep
    obtain ⟨first, hfirst⟩ := before_eq_afterAll hstep
    apply taken_cases
    · rw [hfirst]
      exact afterAll_framePath hcoherent first
    · rw [hfirst]
      exact fits_afterAll hcoherent (by rw [hnone]; nofun) first
  case link => exact fun link hlink => (writesLink_of_mem_links hcoherent rfl hlink).1
  case lost => exact fun step _ frame => mem_lost_iff
  case interrupted => exact fun step _ frame => mem_interrupted_iff
  case taken_eq => exact (flatMap_links hnone occasions fun step h => by rw [hidle step h]).symm
  case written_eq => exact (flatMap_links hnone occasions fun step h => by rw [hidle step h]).symm
  case lost_eq => exact (flatMap_links hnone occasions fun step h => by rw [hidle step h]).symm
  case sent_eq => exact sentIn_eq_links hnone occasions
  case linksEstablished_eq =>
    rw [length_links, afterAll_total (·.stats.linksEstablished) connection occasions
      fun step _ => step.counted.linksEstablished_eq]
    exact Nat.zero_add _
  case framesSent_eq =>
    rw [afterAll_total (·.stats.framesSent) connection occasions
      fun step _ => step.handled.framesSent_eq, writtenIn, List.length_flatMap]
    exact Nat.zero_add _
  case bytesSent_eq =>
    have hlinks : (links (connection.history occasions)).map (fun link =>
        (encodeAll (fresh config.codec) (writtenIn link)).output.size) =
          (links (connection.history occasions)).map fun link =>
            (link.map Step.finishedSize).sum :=
      List.map_congr_left fun link hlink => (writesLink_of_mem_links hcoherent rfl hlink).2.symm
    have htotal := sum_links hnone occasions Step.finishedSize fun step h => by
      rw [Step.finishedSize, hidle step h]
      rfl
    rw [afterAll_total (·.stats.bytesSent) connection occasions
      fun step _ => step.counted.bytesSent_eq]
    exact (Nat.zero_add _).trans (htotal.symm.trans (congrArg List.sum hlinks.symm))
  case framesLost_eq =>
    rw [afterAll_total (·.stats.framesLost) connection occasions
      fun step _ => step.handled.framesLost_eq, lostIn, List.length_flatMap]
    exact Nat.zero_add _

end Connection

end LiveRelay
