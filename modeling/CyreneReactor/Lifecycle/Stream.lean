import CyreneReactor.Lifecycle.Sequence

namespace CyreneReactor

open Interaction ReactorService

/-! The events persisted for a deployment are what was announced of it, numbered from one. -/

/-- The rows `list_deployment_events` selects. -/
def Database.eventsOf (db : Database) (id : Uuid) : List DeploymentEvent :=
  (db.deploymentEvents.rows.filter fun row => row.deploymentId == id).map DeploymentEventRow.event

/-- The sequence numbers are 1, 2, …, n. -/
def Numbered (events : List DeploymentEvent) : Prop :=
  events.map DeploymentEvent.sequence = List.range' 1 events.length

theorem foldl_max_range' (count : Nat) : (List.range' 1 count).foldl max 0 = count := by
  induction count with
  | zero => rfl
  | succ count ih =>
      rw [List.range'_1_concat, List.foldl_append, ih]
      simp only [List.foldl_cons, List.foldl_nil]
      omega

theorem Numbered.concat {events : List DeploymentEvent} {event : DeploymentEvent}
    (numbered : Numbered events) (next : event.sequence = events.length + 1) :
    Numbered (events ++ [event]) := by
  unfold Numbered at numbered ⊢
  rw [List.map_append, numbered, List.length_append, List.length_singleton, List.range'_1_concat,
    List.map_singleton, next, Nat.add_comm]

namespace Mark

def phase? : Mark → Option DeploymentPhase
  | announced phase => some phase
  | _ => none

end Mark

/-- The phases announced of a deployment so far. -/
def State.phases (state : State) (id : Uuid) : List DeploymentPhase :=
  (state.marks id).filterMap Mark.phase?

/-- The persisted events are numbered, and their phases are the announced ones. -/
structure Streamed (state : State) (id : Uuid) : Prop where
  numbered : Numbered (state.database.eventsOf id)
  phases : (state.database.eventsOf id).map DeploymentEvent.phase = state.phases id

theorem Database.lastEventSequence_eq {db : Database} {id : Uuid}
    (numbered : Numbered (db.eventsOf id)) :
    db.lastEventSequence id = (db.eventsOf id).length := by
  have sequences : ((db.deploymentEvents.rows.filter fun row => row.deploymentId == id).map
      fun row => row.event.sequence) = (db.eventsOf id).map DeploymentEvent.sequence := by
    rw [eventsOf, List.map_map]
    rfl
  rw [lastEventSequence, sequences, numbered, foldl_max_range']

/-- The row is appended, whatever the table holds. -/
theorem Database.eventsOf_appendDeploymentEvent (db : Database) (id other : Uuid)
    (phase : DeploymentPhase) (message : String) (occurredAt : Datetime)
    (failureCode : Option String) :
    (db.appendDeploymentEvent id phase message occurredAt failureCode).2.eventsOf other =
      db.eventsOf other ++
        if id = other then [db.nextDeploymentEvent id phase message occurredAt failureCode] else [] := by
  have rows : (db.appendDeploymentEvent id phase message occurredAt failureCode).2.deploymentEvents.rows
      = db.deploymentEvents.rows ++
        [⟨id, db.nextDeploymentEvent id phase message occurredAt failureCode⟩] := by
    obtain ⟨events, appended⟩ :=
      db.appendDeploymentEvent_spec id phase message occurredAt failureCode
    simp only [appendDeploymentEvent] at appended ⊢
    cases inserted : db.deploymentEvents.insert?
        ⟨id, db.nextDeploymentEvent id phase message occurredAt failureCode⟩ with
    | none =>
        rw [inserted] at appended
        cases appended
    | some table => exact (Relational.Table.insert?_rows inserted).1
  rw [eventsOf, rows, List.filter_append, List.map_append]
  by_cases same : id = other
  · simp [eventsOf, same]
  · simp [eventsOf, same]

section Streaming

variable {environment : Environment} {service : ReactorService} {state : State}

theorem State.phases_after {caller : Caller Command} {op : Op} {answer : op.Answer} (id : Uuid) :
    (state.after caller true op answer).phases id =
      state.phases id ++ ((op.mark answer id).bind Mark.phase?).toList := by
  rw [State.phases, State.marks_after, List.filterMap_append]
  cases op.mark answer id with
  | none => rfl
  | some mark => cases mark <;> rfl

/-- What neither adds an event nor announces a phase. -/
theorem Streamed.quiet {caller : Caller Command} {op : Op} {answer : op.Answer} {id : Uuid}
    (streamed : Streamed state id)
    (kept : (op.effect state.database).deploymentEvents = state.database.deploymentEvents)
    (unannounced : (op.mark answer id).bind Mark.phase? = none) :
    Streamed (state.after caller true op answer) id := by
  have events : (state.after caller true op answer).database.eventsOf id =
      state.database.eventsOf id := by
    change (op.effect state.database).eventsOf id = _
    rw [Database.eventsOf, kept]
    rfl
  refine ⟨?_, ?_⟩
  · rw [events]
    exact streamed.numbered
  · rw [events, streamed.phases, State.phases_after, unannounced]
    exact (List.append_nil _).symm

theorem Database.createIntent_deploymentEvents (db : Database) (deployment : Deployment)
    (key : Option String) (digest : String) :
    (db.createIntent deployment key digest).2.deploymentEvents = db.deploymentEvents := by
  unfold createIntent
  split
  · rfl
  · rfl
  · split
    · rfl
    · split
      · rfl
      · split <;> rfl

theorem Streamed.announced {caller : Caller Command} {deploymentId id : Uuid}
    {phase : DeploymentPhase} {message : String} {occurredAt : Datetime}
    {failureCode : Option String}
    {answer : (Op.store (.appendDeploymentEvent deploymentId phase message occurredAt
      failureCode)).Answer}
    (streamed : Streamed state id) :
    Streamed (state.after caller true
      (.store (.appendDeploymentEvent deploymentId phase message occurredAt failureCode)) answer)
      id := by
  have events : (state.after caller true
      (.store (.appendDeploymentEvent deploymentId phase message occurredAt failureCode))
      answer).database.eventsOf id = state.database.eventsOf id ++ if deploymentId = id then
        [state.database.nextDeploymentEvent deploymentId phase message occurredAt failureCode]
        else [] :=
    state.database.eventsOf_appendDeploymentEvent deploymentId id phase message occurredAt failureCode
  have phases : (state.after caller true
      (.store (.appendDeploymentEvent deploymentId phase message occurredAt failureCode))
      answer).phases id = state.phases id ++ if deploymentId = id then [phase] else [] := by
    rw [State.phases_after]
    simp only [Op.mark, StoreOp.mark, Option.bind_some]
    split <;> rfl
  by_cases same : deploymentId = id
  · rw [if_pos same] at events phases
    subst same
    refine ⟨?_, ?_⟩
    · rw [events]
      apply streamed.numbered.concat
      exact congrArg Nat.succ (Database.lastEventSequence_eq streamed.numbered)
    · rw [events, phases, List.map_append, streamed.phases]
      rfl
  · rw [if_neg same, List.append_nil] at events phases
    refine ⟨?_, ?_⟩
    · rw [events]
      exact streamed.numbered
    · rw [events, phases]
      exact streamed.phases

theorem Streamed.after {caller : Caller Command} {op : Op} {answer : op.Answer} {id : Uuid}
    (streamed : Streamed state id) : Streamed (state.after caller true op answer) id := by
  cases op with
  | utcNow | uuid4 => exact streamed.quiet rfl rfl
  | activity call =>
      refine streamed.quiet rfl ?_
      simp only [Op.mark]
      split
      · cases call <;> rfl
      · rfl
  | port engine call =>
      refine streamed.quiet rfl ?_
      simp only [Op.mark]
      cases call with
      | prepare =>
          rcases answer with raised | prepared <;>
            simp only [PortCall.mark, Option.bind_some] <;> split <;> rfl
      | start =>
          simp only [PortCall.mark, Option.bind_some]
          split <;> rfl
      | verifyServedModel | inspect | stop => rfl
  | store op =>
      cases op with
      | getDeployment | getEndpoint | getExecutionRef | resolveIdempotency
      | appendDeploymentDiagnostics => exact streamed.quiet rfl rfl
      | saveDeployment | savePair =>
          refine streamed.quiet rfl ?_
          simp only [Op.mark, StoreOp.mark, Option.bind_some]
          split <;> rfl
      | createIntent deployment key digest =>
          refine streamed.quiet (Database.createIntent_deploymentEvents _ _ _ _) ?_
          rcases answer with raised | _ | replay
          · rfl
          · simp only [Op.mark, StoreOp.mark, Option.bind_some]
            split <;> rfl
          · rfl
      | appendDeploymentEvent => exact streamed.announced

theorem Evolves.streamed (evolves : Evolves environment service State.initial state) (id : Uuid) :
    Streamed state id :=
  (evolves.invariant (fun state => Streamed state id)
    (fun _ _ before _ _ _ => before.after) initial_consistent ⟨rfl, rfl⟩).2

end Streaming

end CyreneReactor
