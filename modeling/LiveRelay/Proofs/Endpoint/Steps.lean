import LiveRelay.Proofs.Connection.Offer
import LiveRelay.Proofs.Endpoint.Traffic

/-! # The steps of each connection of an endpoint

While things happen to an endpoint, each of its connections has a history of its own, in which
the fan-out is what the others have made of it in the meantime. So what its links have taken can
be read off its own requests and the answers to them (`sentIn_steps`).
-/

namespace LiveRelay

namespace EndpointStep

/-- What happens to one of the connections in the step. -/
def occasions (step : EndpointStep) (index : Nat) : List Occasion :=
  match step.act with
  | .connection actor act => if actor = index then [⟨step.before.fanOut, act⟩] else []
  | .closeFanOut => []

variable {index : Nat} {connection : Connection}

/-- A connection acts in the step, or it rests. -/
theorem occasions_cases (step : EndpointStep) (index : Nat) :
    (∃ act, step.act = .connection index act ∧
      step.occasions index = [⟨step.before.fanOut, act⟩]) ∨
    ((∀ act, step.act ≠ .connection index act) ∧ step.occasions index = []) := by
  unfold occasions
  cases hact : step.act with
  | closeFanOut => exact .inr ⟨nofun, rfl⟩
  | connection actor act =>
      by_cases hactor : actor = index
      · subst hactor
        exact .inl ⟨act, rfl, if_pos rfl⟩
      · refine .inr ⟨fun other hother => hactor ?_, if_neg hactor⟩
        cases hother
        rfl

/-- A step of the endpoint takes a connection where its own part of the step does. -/
theorem connection_after (step : EndpointStep)
    (h : step.before.connections[index]? = some connection) :
    step.after.connections[index]? = some (connection.afterAll (step.occasions index)) := by
  have hlt : index < step.after.connections.length := by
    rw [after, Endpoint.length_connections_act]
    exact (List.getElem?_eq_some_iff.mp h).1
  obtain ⟨later, hlater⟩ : ∃ later, step.after.connections[index]? = some later :=
    ⟨_, List.getElem?_eq_getElem hlt⟩
  rw [hlater]
  rcases connection_cases hlater with ⟨before, act, hact, hbefore, rfl⟩ | ⟨hsame, hrests⟩
  · obtain rfl := Option.some.inj (h.symm.trans hbefore)
    rcases step.occasions_cases index with ⟨other, hother, hoccasions⟩ | ⟨hrests, -⟩
    · rw [hact] at hother
      cases hother
      rw [hoccasions]
      rfl
    · exact absurd hact (hrests act)
  · obtain rfl := Option.some.inj (h.symm.trans hsame)
    rcases step.occasions_cases index with ⟨act, hact, -⟩ | ⟨-, hoccasions⟩
    · exact absurd hact (hrests act)
    · rw [hoccasions]
      rfl

end EndpointStep

namespace Endpoint

/-- What happens to one of the connections, while all of this happens to the endpoint. -/
def occasions (endpoint : Endpoint) (index : Nat) : List EndpointAct → List Occasion
  | [] => []
  | act :: acts =>
      (EndpointStep.mk endpoint act).occasions index ++ (endpoint.act act).occasions index acts

/-- The steps of one of the connections, while all of this happens to the endpoint. -/
def steps (endpoint : Endpoint) (index : Nat) (acts : List EndpointAct) : List Step :=
  endpoint.connections[index]?.elim [] fun connection =>
    connection.history (endpoint.occasions index acts)

variable {endpoint : Endpoint} {index : Nat} {connection : Connection}

/-- The connections of an endpoint go each their own way. -/
theorem connection_afterAll_eq (h : endpoint.connections[index]? = some connection)
    (acts : List EndpointAct) : (endpoint.afterAll acts).connections[index]? =
      some (connection.afterAll (endpoint.occasions index acts)) := by
  induction acts generalizing endpoint connection with
  | nil => exact h
  | cons act acts ih =>
      rw [occasions, Connection.afterAll_append]
      exact ih (EndpointStep.connection_after ⟨endpoint, act⟩ h)

/-- What goes over the links of a connection is what they take of what it offers. -/
theorem sent_traffic (h : endpoint.connections[index]? = some connection)
    (acts : List EndpointAct) : (endpoint.traffic index acts).sent =
      sentFrom connection.life.left (connection.history (endpoint.occasions index acts)) := by
  induction acts generalizing endpoint connection with
  | nil => rfl
  | cons act acts ih =>
      let step : EndpointStep := ⟨endpoint, act⟩
      have hafter : (endpoint.act act).connections[index]? =
          some (connection.afterAll (step.occasions index)) := step.connection_after h
      rw [traffic, Traffic.sent_append, occasions, ih hafter]
      rcases step.occasions_cases index with ⟨own, hown, hoccasions⟩ | ⟨hrests, hoccasions⟩
      · rw [hoccasions, (EndpointStep.handling_of_acts hown h).2]
        exact (sentFrom_cons ⟨connection, ⟨endpoint.fanOut, own⟩⟩ _).symm
      · rw [hoccasions, (EndpointStep.handling_of_rests hrests).2]
        exact ByteArray.empty_append

/-- The links of a connection in a new endpoint take what goes over them. -/
theorem sentIn_steps {kind : CodecKind} (h : endpoint.IsNew kind)
    (hconnection : endpoint.connections[index]? = some connection) (acts : List EndpointAct) :
    sentIn (endpoint.steps index acts) = (endpoint.traffic index acts).sent := by
  have hleft : connection.life.left = .empty := by
    rw [h.unstarted connection (List.mem_of_getElem? hconnection)]
    rfl
  rw [sent_traffic hconnection, hleft, steps, hconnection]
  rfl

end Endpoint

end LiveRelay
