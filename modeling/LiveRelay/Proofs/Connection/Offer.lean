import LiveRelay.Proofs.Connection.Links
import LiveRelay.Proofs.Connection.Pace

/-! # What is handed to a link

A connection hands bytes to its link by asking it to write them, and is answered how many the
link has taken. `sentIn` are the bytes that the link takes by these requests and answers alone.
What a connection keeps as left to be written is what it has on offer (`Conduct.offer_left`), so
they are the bytes of its traffic (`sentFrom_cons`).
-/

namespace LiveRelay

open LinkCodec

/-- The bytes that are left to be written. -/
def Life.left : Life → ByteArray
  | .running _ await => await.left
  | _ => .empty

theorem Await.left_of_hasLink {await : Await} (h : await.hasLink = false) :
    await.left = .empty := by
  cases await with
  | writing => cases h
  | _ => rfl

theorem Life.left_of_link?_eq_none {life : Life} (h : life.link? = none) : life.left = .empty := by
  cases life with
  | running run await => cases await <;> first | rfl | cases h
  | _ => rfl

theorem Life.left_of_link? {life : Life} {await : Await} (h : life.link? = some await) :
    life.left = await.left := by
  obtain ⟨run, rfl⟩ := running_of_link? h
  rfl

theorem Await.left_opening (kind : CodecKind) (framePath : FramePath) :
    (opening kind framePath).left = .empty := by
  cases framePath <;> rfl

namespace Act

/-- The bytes that the link takes of those that are on offer. -/
def takes (act : Act) (offered : ByteArray) : ByteArray :=
  match act with
  | .poll false (.wrote (.ok taken)) => offered.extract 0 taken
  | _ => .empty

/-- What stays on offer if nothing else is asked of the link. An answer ends the request. -/
def keeps (act : Act) (offered : ByteArray) : ByteArray :=
  match act with
  | .poll false (.wrote _) => .empty
  | _ => offered

@[simp] theorem takes_empty (act : Act) : act.takes .empty = .empty := by
  unfold takes
  split
  next => simp
  next => rfl

theorem keeps_empty (act : Act) : act.keeps .empty = .empty := by
  unfold keeps
  split <;> rfl

/-- A connection that does not heed an act goes on offering what it has left. -/
theorem keeps_left {act : Act} {life : Life} (h : life.heeds act = false) :
    act.keeps life.left = life.left := by
  unfold keeps
  split
  next outcome =>
    cases life with
    | running run await =>
        cases await with
        | writing => cases h
        | _ => rfl
    | _ => rfl
  next => rfl

end Act

theorem Await.sent_traffic (await : Await) (signal : Signal) :
    (await.traffic signal).sent = (Act.poll false signal).takes await.left := by
  unfold traffic
  split
  next => rfl
  next => rfl
  next => split_ifs <;> rfl
  next => rfl
  next hwrite =>
    cases await with
    | writing codec frame size rest =>
        cases signal with
        | wrote outcome =>
            cases outcome with
            | ok taken => exact (hwrite codec frame size rest taken rfl rfl).elim
            | error cause => rfl
        | _ => rfl
    | _ => exact (Act.takes_empty _).symm

namespace Turn

/-- The bytes that the link is asked to write in a turn. -/
def handed (turn : Turn) : ByteArray := joined (turn.requests.map Request.payload)

/-- The bytes that are on offer to the link after an act has come to this turn, when `offered`
have been on offer before. What is asked for now replaces what was asked for then. -/
def offer (turn : Turn) (act : Act) (offered : ByteArray) : ByteArray :=
  if turn.requests.isEmpty then act.keeps offered else turn.handed

variable {turn moved : Turn}

@[simp] theorem handed_ask (request : Request) (run : Run) (await : Await) :
    (turn.ask request run await).handed = turn.handed ++ request.payload := by
  simp [handed]

@[simp] theorem handed_transition (target : ConnectionState) (attempt : Nat)
    (failure : Option ConnectionError) :
    (turn.transition target attempt failure).handed = turn.handed := by
  rw [handed, requests_transition, handed]

@[simp] theorem handed_learn (address : Option SocketAddress) :
    (turn.learn address).handed = turn.handed := by
  rw [handed, requests_learn, handed]

@[simp] theorem handed_leave (await : Await) : (turn.leave await).handed = turn.handed := by
  rw [handed, requests_leave, List.map_append, joined_append, handed]
  split_ifs <;> exact ByteArray.append_empty

@[simp] theorem handed_finish (run : Run) (cancelled : Bool) (failure : Option ConnectionError) :
    (turn.finish run cancelled failure).handed = turn.handed := by
  rw [handed, requests_finish, List.map_append, joined_append, handed]
  split_ifs <;> exact ByteArray.append_empty

theorem Moves.handed_eq (h : Moves turn moved) : moved.handed = turn.handed := by
  rw [handed, h.requests_eq, handed]

theorem handed_reportDrops (turn : Turn) : turn.reportDrops.handed = turn.handed := by
  rw [handed, requests, reportDrops_eq, List.filterMap_append, filterMap_request?_emit,
    List.append_nil]
  rfl

/-- Only a link that is not up is left without a word, and nothing is on offer then. -/
theorem left_of_leave {connection : Connection} {run : Run} {await : Await}
    (hlife : connection.life = .running run await) (h : (turn.leave await).requests = []) :
    connection.life.left = .empty := by
  rw [requests_leave, List.append_eq_nil_iff] at h
  rw [hlife]
  apply Await.left_of_hasLink
  by_contra hlink
  rw [if_pos (Bool.not_eq_false _ ▸ hlink)] at h
  cases h.2

variable {act : Act} {offered : ByteArray}

/-- What is asked for last is what is on offer. -/
theorem offer_ask (hhanded : turn.handed = .empty) (request : Request) (run : Run)
    (await : Await) : (turn.ask request run await).offer act offered = request.payload := by
  have hasks : (turn.ask request run await).requests.isEmpty = false := by simp
  rw [offer, hasks, if_neg Bool.false_ne_true, handed_ask, hhanded, ByteArray.empty_append]

theorem offer_eq_empty (hhanded : turn.handed = .empty)
    (hoffered : turn.requests = [] → offered = .empty) : turn.offer act offered = .empty := by
  unfold offer
  split_ifs with hnone
  · rw [hoffered (List.isEmpty_iff.mp hnone), Act.keeps_empty]
  · exact hhanded

theorem offer_finish (hhanded : turn.handed = .empty)
    (hoffered : turn.requests = [] → offered = .empty) (run : Run) (cancelled : Bool)
    (failure : Option ConnectionError) :
    (turn.finish run cancelled failure).offer act offered = .empty := by
  refine offer_eq_empty ((handed_finish run cancelled failure).trans hhanded) fun hnone => ?_
  rw [requests_finish] at hnone
  exact hoffered (List.append_eq_nil_iff.mp hnone).1

end Turn

namespace Connection

variable {connection : Connection} {fanOut : FanOut} {act : Act} {turn : Turn}

theorem payload_quest (connection : Connection) (run : Run) :
    (connection.quest run).payload = .empty := by
  unfold quest
  split
  next => rfl
  next => split_ifs <;> rfl

theorem left_questing (connection : Connection) (run : Run) :
    (connection.questing run).left = .empty := by
  unfold questing
  split
  next => rfl
  next => split_ifs <;> rfl

/-- However a connection conducts itself, it has on offer what it has left to write. -/
theorem Conduct.offer_left (h : connection.Conduct fanOut act turn) :
    turn.offer act connection.life.left = turn.connection.life.left := by
  have hfresh : ({ connection, fanOut } : Turn).handed = .empty := rfl
  cases h with
  | rests h asked => exact Act.keeps_left h
  | closes h => exact Turn.offer_eq_empty rfl fun _ => by rw [h]; rfl
  | begins h token =>
      rw [Turn.offer_ask rfl, payload_quest]
      exact (left_questing _ _).symm
  | beginsInVain h token =>
      rw [Turn.connection_finish]
      exact Turn.offer_finish rfl (fun _ => by rw [h]; rfl) _ _ _
  | interrupted h signal =>
      rw [Turn.connection_finish]
      exact Turn.offer_finish ((Turn.handed_leave _).trans hfresh) (Turn.left_of_leave h) _ _ _
  | bound h address =>
      rw [Turn.offer_ask ((Turn.handed_learn address).trans hfresh), payload_quest]
      exact (left_questing _ _).symm
  | linked h hlinks hmoves =>
      have hmoved := (Turn.handed_transition .active 0 none).trans (hmoves.handed_eq.trans hfresh)
      rw [Turn.offer_ask hmoved]
      exact (Await.left_opening _ _).symm
  | proceeds h hlink hmoves hrequest hlink' =>
      rw [Turn.offer_ask (hmoves.handed_eq.trans hfresh), hrequest.payload_eq]
      rfl
  | idles h =>
      rw [h]
      rfl
  | takes h hmoves hrequest hlink' =>
      have hmoved := hmoves.handed_eq.trans (Turn.handed_reportDrops _)
      rw [Turn.offer_ask (hmoved.trans rfl), hrequest.payload_eq]
      rfl
  | queueClosed h hclosed =>
      rw [Turn.connection_finish]
      exact Turn.offer_finish ((Turn.handed_leave _).trans hfresh) (Turn.left_of_leave h) _ _ _
  | singleShotOver h hsingle hends hmoves =>
      have hmoved := hmoves.handed_eq.trans hfresh
      rw [Turn.connection_finish]
      exact Turn.offer_finish ((Turn.handed_leave _).trans hmoved) (Turn.left_of_leave h) _ _ _
  | pauses h hfailure hmoves hbudget =>
      rw [Turn.offer_ask (by simp [hmoves.handed_eq, hfresh])]
      rfl
  | givesUp h hfailure hmoves hbudget =>
      rw [Turn.connection_finish]
      refine Turn.offer_finish (by simp [hmoves.handed_eq, hfresh]) (fun hnone => ?_) _ _ _
      rw [Turn.requests_transition] at hnone
      exact Turn.left_of_leave h hnone
  | retried h =>
      rw [Turn.offer_ask rfl, payload_quest]
      exact (left_questing _ _).symm

/-- The link takes from what is left to be written. -/
theorem sent_traffic (connection : Connection) (act : Act) :
    (connection.traffic act).sent = act.takes connection.life.left := by
  unfold traffic
  cases act with
  | poll cancelled signal =>
      cases cancelled with
      | true => cases connection.life <;> rfl
      | false =>
          cases connection.life with
          | running run await => exact await.sent_traffic signal
          | _ => exact (Act.takes_empty _).symm
  | _ => cases connection.life <;> rfl

end Connection

/-- The bytes that the link takes in these steps, when `offered` are on offer before. -/
def sentFrom (offered : ByteArray) : List Step → ByteArray
  | [] => .empty
  | step :: steps =>
      step.act.takes offered ++ sentFrom (step.turn.offer step.act offered) steps

/-- The bytes that the link takes in these steps of those that it is asked to write in them. -/
def sentIn (steps : List Step) : ByteArray := sentFrom .empty steps

theorem sentFrom_nil (offered : ByteArray) : sentFrom offered [] = .empty := rfl

/-- What a connection has left is what is on offer, so the link takes the bytes of its traffic. -/
theorem sentFrom_cons (step : Step) (steps : List Step) :
    sentFrom step.before.life.left (step :: steps) =
      step.traffic.sent ++ sentFrom step.after.life.left steps := by
  have hsent : step.traffic.sent = step.act.takes step.before.life.left :=
    step.before.sent_traffic step.act
  have hoffer : step.turn.offer step.act step.before.life.left = step.after.life.left :=
    (step.before.act_conducts step.fanOut step.act).offer_left
  rw [sentFrom, hsent, hoffer]

namespace Connection

/-- Nothing is sent but over the links, and over each of them what it is asked for itself. -/
theorem sentFrom_eq_links (connection : Connection) (occasions : List Occasion) :
    sentFrom connection.life.left (connection.history occasions) =
      sentFrom connection.life.left ((connection.history occasions).takeWhile Step.isLinked) ++
        joined ((links (connection.history occasions)).map sentIn) := by
  induction occasions generalizing connection with
  | nil => exact ByteArray.append_empty.symm
  | cons occasion occasions ih =>
      rw [history]
      generalize hstep : Step.mk connection occasion = step
      obtain rfl : step.before = connection := by rw [← hstep]
      have hrest := ih step.after
      rw [links, List.takeWhile_cons, sentFrom_cons, hrest]
      cases hlinked : step.isLinked with
      | true =>
          rw [Step.opensLink_of_isLinked hlinked, if_neg Bool.false_ne_true, if_pos rfl,
            sentFrom_cons, ByteArray.append_assoc]
      | false =>
          obtain ⟨-, -, hsent, hnone⟩ := Step.of_isLinked_eq_false hlinked
          rw [hsent, ByteArray.empty_append, if_neg Bool.false_ne_true]
          cases hopens : step.opensLink with
          | true =>
              have hleft : step.after.life.left = .empty :=
                (Life.left_of_link? (Step.link?_of_opensLink hopens).2).trans
                  (Await.left_opening _ _)
              rw [if_pos rfl, List.map_cons, joined, sentIn, hleft]
              exact ByteArray.empty_append.symm
          | false =>
              rw [if_neg Bool.false_ne_true, takeWhile_of_link?_eq_none (hnone hopens)]
              rfl

theorem sentIn_eq_links {connection : Connection} (h : connection.life.link? = none)
    (occasions : List Occasion) :
    sentIn (connection.history occasions) =
      joined ((links (connection.history occasions)).map sentIn) := by
  have hlinks := connection.sentFrom_eq_links occasions
  rw [Life.left_of_link?_eq_none h, takeWhile_of_link?_eq_none h] at hlinks
  exact hlinks.trans ByteArray.empty_append

end Connection

end LiveRelay
