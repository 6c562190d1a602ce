import CyreneReactor.Guarantees.Linearizability

namespace CyreneReactor

open Interaction ReactorService

/-! STOPPED means stopped.

The store says STOPPED only after the engine released what it was said to run,
and a stop that failed stays on record until a later one succeeds.
-/

variable {environment : Environment} {service : ReactorService}

/-- The evidence recorded since the latest launch began is what the store holds. -/
def EvidenceKept (state : State) : Prop :=
  ∀ id ref, recordedEvidence id state.journal = some ref →
    ∃ slot, state.database.slot id = some slot ∧ slot.executionRef = some ref

theorem Event.evidence?_of_unwritten {id : Uuid} {event : Event}
    (unwritten : event.writesSlot id = false) : event.evidence? id = none := by
  obtain ⟨caller, op, answer⟩ := event
  cases op with
  | store op =>
      cases op with
      | savePair deployment endpoint executionRef =>
          have different : ¬deployment.id = id := by simpa [Event.writesSlot] using unwritten
          exact if_neg different
      | createIntent | saveDeployment | getDeployment | getEndpoint | getExecutionRef
      | resolveIdempotency | appendDeploymentEvent | appendDeploymentDiagnostics => rfl
  | utcNow | uuid4 | port | activity => rfl

theorem Event.continues_of_unwritten {id : Uuid} {event : Event}
    (unwritten : event.writesSlot id = false) : event.beginsLaunch id = false := by
  cases begins : event.beginsLaunch id with
  | false => rfl
  | true =>
      rw [Event.writesSlot_of_beginsLaunch begins] at unwritten
      cases unwritten

theorem Evolves.evidenceKept {state : State}
    (evolves : Evolves environment service State.initial state) : EvidenceKept state := by
  refine (evolves.invariant EvidenceKept ?_ initial_consistent
    (fun _ _ recorded => by cases recorded)).2
  intro caller op state answer recorded consistent before _ answers lawful id ref known
  rw [State.after_recorded recorded, recordedEvidence_append] at known
  have step : SlotStep service ⟨caller, op, answer⟩ state.journal id (state.database.slot id)
      ((state.after caller true op answer).database.slot id) :=
    lawful.slotStep consistent answers id
  cases begins : (Event.mk caller op answer).beginsLaunch id with
  | true =>
      rw [begins] at known
      cases known
  | false =>
      simp only [begins, Bool.false_eq_true, if_false] at known
      generalize found : state.database.slot id = old at step
      generalize (state.after caller true op answer).database.slot id = new at step
      cases step with
      | same unwritten =>
          rw [Event.evidence?_of_unwritten unwritten, Option.none_or] at known
          obtain ⟨slot, here, evidence⟩ := before id ref known
          exact ⟨slot, found ▸ here, evidence⟩
      | created _ _ creates =>
          have launched : (Event.mk caller op answer).beginsLaunch id = true :=
            Event.beginsLaunch_of_created creates
          rw [begins] at launched
          cases launched
      | @written old new write writes _ evidence =>
          refine ⟨new, rfl, evidence.trans ?_⟩
          cases fresh : (Event.mk caller op answer).evidence? id with
          | some ref' =>
              rw [fresh] at known
              exact known
          | none =>
              rw [fresh, Option.none_or] at known
              obtain ⟨slot, here, kept⟩ := before id ref known
              rw [found, Option.some.injEq] at here
              rw [Option.none_or, here]
              exact kept

/-- A STOPPED deployment was released since its latest launch began. -/
def ReleasedSinceLaunch (state : State) : Prop :=
  ∀ id slot ref, state.database.slot id = some slot → slot.deployment.observedState = .stopped →
    slot.executionRef = some ref →
      ∃ event ∈ sinceLaunch id state.journal,
        event.exchange?.any (Exchange.stopReturned id ref) = true

theorem Evolves.releasedSinceLaunch {state : State}
    (evolves : Evolves environment service State.initial state) : ReleasedSinceLaunch state := by
  refine (evolves.invariant ReleasedSinceLaunch ?_ initial_consistent
    (fun _ _ _ here => by cases here)).2
  intro caller op state answer recorded consistent before _ answers lawful id slot ref here
    stopped evidence
  rw [State.after_recorded recorded, sinceLaunch_append]
  have step : SlotStep service ⟨caller, op, answer⟩ state.journal id (state.database.slot id)
      ((state.after caller true op answer).database.slot id) :=
    lawful.slotStep consistent answers id
  rw [here] at step
  -- What was released before stays released, unless a launch begins now.
  have kept : (Event.mk caller op answer).beginsLaunch id = false →
      (∃ event ∈ sinceLaunch id state.journal,
        event.exchange?.any (Exchange.stopReturned id ref) = true) →
      ∃ event ∈ (if (Event.mk caller op answer).beginsLaunch id then []
          else sinceLaunch id state.journal ++ [⟨caller, op, answer⟩]),
        event.exchange?.any (Exchange.stopReturned id ref) = true := by
    rintro continues ⟨event, member, returned⟩
    rw [continues]
    exact ⟨event, List.mem_append_left _ member, returned⟩
  generalize found : state.database.slot id = old at step
  cases step with
  | same unwritten =>
      exact kept (Event.continues_of_unwritten unwritten)
        (before id slot ref found stopped evidence)
  | created => cases stopped
  | @written old _ write _ begins _ =>
      have continues : (Event.mk caller op answer).beginsLaunch id = false := by
        cases launched : (Event.mk caller op answer).beginsLaunch id with
        | false => rfl
        | true =>
            have starting := begins launched
            rw [stopped] at starting
            cases starting
      obtain ⟨_, same⟩ := write.transition.halted stopped
      have key : old.deployment.id = id := (Database.slot_eq_some found).2.1
      obtain ⟨exchange, recent, returned⟩ := write.released stopped ref (same ▸ evidence)
      rw [key] at recent returned
      obtain ⟨event, member, is⟩ := exists_sinceLaunch recent
      exact kept continues ⟨event, member, by rw [is]; exact returned⟩

/-- A call of `stop` that would release the execution recorded in a slot. -/
structure ReleaseCall where
  engine : Engine
  id : Uuid
  executionRef : String
  endpoint : Endpoint

/-- The exchange is this call, whatever was answered. -/
def ReleaseCall.Makes (call : ReleaseCall) (exchange : Exchange) : Prop :=
  ∃ identity version answer, exchange =
    ⟨call.engine, .stop call.executionRef call.endpoint.url call.id identity version, answer⟩

/-- The call returned. -/
def ReleaseCall.returned (call : ReleaseCall) : Exchange → Bool :=
  Exchange.stopReturned call.id call.executionRef

/-- The deployment waits to be stopped, with its execution and its endpoint on record. -/
structure Slot.Waiting (slot : Slot) (call : ReleaseCall) (database : Database) : Prop where
  here : database.slot call.id = some slot
  stopping : slot.deployment.observedState = .stopping
  evidence : slot.executionRef = some call.executionRef
  address : slot.endpoint = some call.endpoint

/-- It waits for exactly this call, which is not answered yet. -/
structure AwaitsRelease (service : ReactorService) (call : ReleaseCall) (slot : Slot)
    (state : State) : Prop where
  waiting : slot.Waiting call state.database
  bound : service.engineFor slot.deployment.servingBindingId = .ok call.engine
  takes : (runtimeModelVersion slot.deployment).isSome = true →
    call.engine.takesModelVersion .stop = true
  unreleased : ∀ exchange ∈ sinceWrite call.id state.journal, call.returned exchange = false

/-- Nothing is launched while a deployment is not STARTING. -/
theorem Op.Lawful.launches_nothing {caller : Caller Command} {op : Op} {answer : op.Answer}
    {state : State} {id : Uuid} {slot : Slot} (lawful : op.Lawful service caller state)
    (here : state.database.slot id = some slot)
    (stopping : slot.deployment.observedState = .stopping) :
    ∀ exchange ∈ exchanges [⟨caller, op, answer⟩], exchange.launches id = false := by
  have refused : ∀ {target : Uuid}, Starting state target → (target == id) = false := by
    rintro target ⟨other, there, starting⟩
    refine beq_eq_false_iff_ne.mpr fun same => ?_
    subst same
    rw [here, Option.some.injEq] at there
    subst there
    rw [stopping] at starting
    cases starting
  intro exchange member
  cases op with
  | port engine call =>
      rw [List.mem_singleton.mp member]
      cases call with
      | prepare target => exact refused lawful.1
      | start target => exact refused lawful.1
      | verifyServedModel | inspect | stop => rfl
  | utcNow | uuid4 | store | activity => exact absurd member List.not_mem_nil

/-- What has happened since a failed stop: a later one returned, or nothing was
launched and the deployment still waits. -/
def SinceFailure (call : ReleaseCall) (waits : Prop) (events : List Event) : Prop :=
  (∃ exchange ∈ exchanges events, call.returned exchange = true) ∨
    ((∀ exchange ∈ exchanges events, exchange.launches call.id = false) ∧ waits)

theorem Evolves.awaitsRelease {start finish : State} {call : ReleaseCall} {slot : Slot}
    (evolves : Evolves environment service start finish) (consistent : Consistent start)
    (waits : AwaitsRelease service call slot start) :
    ∃ events, finish.journal = start.journal ++ events ∧
      SinceFailure call (∃ now, AwaitsRelease service call now finish) events := by
  refine (evolves.invariant (fun state => ∃ events, state.journal = start.journal ++ events ∧
    SinceFailure call (∃ now, AwaitsRelease service call now state) events) ?_ consistent
    ⟨[], (List.append_nil _).symm, .inr ⟨fun _ member => absurd member List.not_mem_nil, slot,
      waits⟩⟩).2
  rintro caller op state answer recorded consistent ⟨events, grown, before⟩ _ answers lawful
  let event : Event := ⟨caller, op, answer⟩
  refine ⟨events ++ [event], by rw [State.after_recorded recorded, grown, List.append_assoc], ?_⟩
  unfold SinceFailure
  rw [exchanges_append]
  rcases before with ⟨exchange, member, returned⟩ | ⟨unlaunched, now, waits⟩
  · exact .inl ⟨exchange, List.mem_append_left _ member, returned⟩
  by_cases released : ∃ exchange ∈ exchanges [event], call.returned exchange = true
  · obtain ⟨exchange, member, returned⟩ := released
    exact .inl ⟨exchange, List.mem_append_right _ member, returned⟩
  right
  have waiting := waits.waiting
  refine ⟨fun exchange member => ?_, ?_⟩
  · rcases List.mem_append.mp member with earlier | last
    · exact unlaunched exchange earlier
    · exact lawful.launches_nothing waiting.here waiting.stopping exchange last
  have step : SlotStep service event state.journal call.id (state.database.slot call.id)
      ((state.after caller true op answer).database.slot call.id) :=
    lawful.slotStep consistent answers call.id
  rw [waiting.here] at step
  generalize there : (state.after caller true op answer).database.slot call.id = new at step
  have since := sinceWrite_after call.id state caller op answer
  cases step with
  | same unwritten =>
      refine ⟨now, ⟨there, waiting.stopping, waiting.evidence, waiting.address⟩, waits.bound,
        waits.takes, fun exchange member => ?_⟩
      rw [since, unwritten] at member
      rcases List.mem_append.mp member with earlier | last
      · exact waits.unreleased exchange earlier
      · cases returned : call.returned exchange with
        | false => rfl
        | true => exact absurd ⟨exchange, last, returned⟩ released
  | @written _ new write writes _ _ =>
      have key : now.deployment.id = call.id := (Database.slot_eq_some waiting.here).2.1
      rcases write.transition.halting waiting.stopping with stopped | ⟨stopping, evidence, address⟩
      · obtain ⟨exchange, recent, returned⟩ :=
          write.released stopped call.executionRef waiting.evidence
        rw [key] at recent returned
        have unreturned := waits.unreleased exchange recent
        rw [ReleaseCall.returned, returned] at unreturned
        cases unreturned
      · obtain ⟨binding, version⟩ := write.transition.served
        refine ⟨new, ⟨there, stopping, evidence.trans waiting.evidence,
          address.trans waiting.address⟩, binding ▸ waits.bound, version ▸ waits.takes,
          fun exchange member => ?_⟩
        rw [since, writes] at member
        exact absurd member List.not_mem_nil

/-- The first engine call of a stop of the deployment, or of a restart of it that
its version check lets pass, is the release. -/
inductive Retries (call : ReleaseCall) (slot : Slot) (command : Command)
    (result : Except Raised Deployment) : List Exchange → Prop where
  | released {exchange : Exchange} {rest : List Exchange} (first : call.Makes exchange) :
      Retries call slot command result (exchange :: rest)
  | refused {nodeRef : NodeRef} {expected : Nat}
      (restart : command = .restart call.id nodeRef expected)
      (stale : expected ≠ slot.deployment.resourceVersion)
      (conflict : result = .error (.product versionConflict)) :
      Retries call slot command result []

/-- The command is a stop or a restart of this deployment. -/
def Command.stops (id : Uuid) : Command → Prop
  | .stop target | .restart target _ _ => target = id
  | .create _ _ | .get _ => False

theorem Command.stops_locks {id : Uuid} {command : Command} (stops : command.stops id)
    (other : Uuid) : command ≠ .get other := by
  rintro rfl
  exact stops

theorem AwaitsRelease.makes {state : State} {call : ReleaseCall} {slot new : Slot}
    (waits : AwaitsRelease service call slot state) {made : List Exchange}
    {result : Except Raised Deployment}
    (stops : Stops environment service slot made new result) :
    ∃ exchange, call.Makes exchange ∧ made = [exchange] := by
  have waiting := waits.waiting
  have running : slot.deployment.observedState ≠ .stopped := by simp [waiting.stopping]
  have key : slot.deployment.id = call.id := (Database.slot_eq_some waiting.here).2.1
  obtain ⟨identity, answer, rfl⟩ :=
    stops.callsEngine running waiting.evidence waiting.address waits.bound waits.takes
  refine ⟨_, ⟨identity, runtimeModelVersion slot.deployment, ?_⟩, rfl⟩
  rw [← key]
  exact ⟨answer, rfl⟩

/-- A command that stops a waiting deployment calls the engine for it first. -/
theorem AwaitsRelease.retried {state finish : State} {call : ReleaseCall} {slot : Slot}
    (waits : AwaitsRelease service call slot state) (consistent : Consistent state)
    {index : Nat} {command : Command} {result : Except Raised Deployment}
    (stops : command.stops call.id) (unseen : Unseen index state)
    (ran : Alone environment service ⟨index, command⟩ 0 (service.body command).attempt state
      0 (.pure result) finish) :
    ∃ events, finish.journal = state.journal ++ events ∧
      Retries call slot command result (exchanges events) := by
  have waiting := waits.waiting
  cases command with
  | stop target =>
      obtain rfl : target = call.id := stops
      obtain ⟨made, new, recent, outcome, inside⟩ := Alone.stop consistent waiting.here ran
      obtain ⟨events, grown, exchanged⟩ := inside.grown
      obtain ⟨exchange, makes, rfl⟩ := waits.makes outcome
      exact ⟨events, grown, exchanged ▸ .released makes⟩
  | restart target nodeRef expected =>
      obtain rfl : target = call.id := stops
      obtain ⟨made, new, recent, outcome, inside⟩ :=
        Alone.restart consistent unseen waiting.here ran
      obtain ⟨events, grown, exchanged⟩ := inside.grown
      refine ⟨events, grown, ?_⟩
      rw [exchanged]
      cases outcome with
      | conflict stale => exact .refused rfl stale.symm rfl
      | kept _ stopped =>
          obtain ⟨exchange, makes, rfl⟩ := waits.makes stopped
          exact .released makes
      | relaunched _ stopped _ =>
          obtain ⟨exchange, makes, rfl⟩ := waits.makes stopped
          exact .released makes
  | create request key | get target => exact stops.elim

/-- In this step a stop, or the stop a restart begins with, is told that the
execution was not released. -/
structure FailedStop (engine : Engine) (id : Uuid) (executionRef endpointUrl : String)
    (pool next : Pool (service.system environment)) (caller : Caller Command) (identity : String)
    (version : Option ModelVersionDocument) (raised : Raised) : Prop where
  reached : Reached environment service pool
  step : Step pool next
  failed : State.journal next.state = State.journal pool.state ++
    [⟨caller, .port engine (.stop executionRef endpointUrl id identity version), .error raised⟩]
  /-- A launch calls `stop` as well, for what it has just started. -/
  stops : (∃ target, caller.command = .stop target) ∨
    ∃ slot, (State.database pool.state).slot id = some slot ∧
      slot.deployment.observedState = .stopping

/-- What follows a failed stop, in every run: of commands started later, and of those that wait
for the lock already. -/
structure Unstopped (call : ReleaseCall) (next : Pool (service.system environment)) : Prop where
  kept : ∀ {last : Pool (service.system environment)}, Relation.ReflTransGen Step next last →
    ∃ events, State.journal last.state = State.journal next.state ++ events ∧
      SinceFailure call (∃ now : Slot, now.Waiting call (State.database last.state)) events
  retried : ∀ {last : Pool (service.system environment)} {index depth : Nat} {command : Command}
    {result : Except Raised Deployment}, Relation.ReflTransGen Step next last →
    (∀ thread, next.threads[index]? = some thread → thread = Thread.start command) →
    last.threads[index]? = some ⟨command, depth, .pure result⟩ → command.stops call.id →
    ∃ start finish events,
      Alone environment service ⟨index, command⟩ 0 (service.body command).attempt start
        0 (.pure result) finish ∧
      Evolves environment service finish last.state ∧
      start.journal = State.journal next.state ++ events ∧
      SinceFailure call (∃ (now : Slot) (own : List Event), now.Waiting call start.database ∧
        finish.journal = start.journal ++ own ∧
        Retries call now command result (exchanges own)) events

/-- STOPPED is only persisted after a release, and a failed release stays pending. -/
structure StoppedMeansReleased (environment : Environment) (service : ReactorService) : Prop where
  released : ∀ {pool : Pool (service.system environment)} {id : Uuid} {deployment : Deployment}
    {ref : String}, Reached environment service pool →
    (State.database pool.state).getDeployment id = some deployment →
    deployment.observedState = .stopped →
    recordedEvidence id (State.journal pool.state) = some ref →
    ∃ event ∈ sinceLaunch id (State.journal pool.state),
      event.exchange?.any (Exchange.stopReturned id ref) = true
  unstopped : ∀ {pool next : Pool (service.system environment)} {caller : Caller Command}
    {engine : Engine} {id : Uuid} {executionRef endpointUrl identity : String}
    {version : Option ModelVersionDocument} {raised : Raised},
    FailedStop engine id executionRef endpointUrl pool next caller identity version raised →
    ∃ endpoint : Endpoint, endpoint.url = endpointUrl ∧
      Unstopped ⟨engine, id, executionRef, endpoint⟩ next

/-- A failed stop leaves the deployment waiting for the call that failed. -/
theorem FailedStop.awaits {pool next : Pool (service.system environment)} {caller : Caller Command}
    {engine : Engine} {id : Uuid} {executionRef endpointUrl identity : String}
    {version : Option ModelVersionDocument} {raised : Raised}
    (failed : FailedStop engine id executionRef endpointUrl pool next caller identity version
      raised) :
    ∃ endpoint slot, endpoint.url = endpointUrl ∧
      AwaitsRelease service ⟨engine, id, executionRef, endpoint⟩ slot next.state := by
  obtain ⟨lawful, _, after⟩ := Moves.event (failed.reached.step failed.step).1 failed.failed
  obtain ⟨slot, here, ⟨starting, may⟩ | halted⟩ := lawful
  · rcases failed.stops with ⟨target, command⟩ | ⟨other, there, stopping⟩
    · unfold MayLaunch at may
      simp only [command] at may
    · rw [here, Option.some.injEq] at there
      subst there
      rw [starting] at stopping
      cases stopping
  · obtain ⟨endpoint, address, url⟩ := halted.address
    have key : slot.deployment.id = id := (Database.slot_eq_some here).2.1
    refine ⟨endpoint, slot, url, ?_⟩
    rw [after]
    refine ⟨⟨here, halted.stopping, halted.evidence, address⟩, halted.bound, halted.takes,
      fun exchange member => ?_⟩
    have since := sinceWrite_after id pool.state caller
      (.port engine (.stop executionRef endpointUrl id identity version)) (.error raised)
    rcases List.mem_append.mp ((congrArg (exchange ∈ ·) since).mp member) with earlier | last
    · have unreturned := halted.unreleased exchange (key.symm ▸ earlier)
      rw [key] at unreturned
      exact unreturned
    · rw [List.mem_singleton.mp last]
      rfl

theorem AwaitsRelease.unstopped {call : ReleaseCall} {slot : Slot}
    {next : Pool (service.system environment)} (reached : Reached environment service next)
    (waits : AwaitsRelease service call slot next.state) : Unstopped call next where
  kept run := by
    obtain ⟨events, grown, since⟩ :=
      (reached.evolves run).1.awaitsRelease reached.consistent waits
    exact ⟨events, grown, since.imp_right (And.imp_right fun ⟨now, waits⟩ => ⟨now, waits.waiting⟩)⟩
  retried run unbegun found stops := by
    have unseen := reached.unseen_of_unbegun unbegun (Command.stops_locks stops)
    obtain ⟨finish, later, finished⟩ :=
      reached.finished_unbegun run unseen (fun thread here => ⟨_, unbegun thread here⟩) found
    rcases finished with ⟨id, rfl⟩ | ⟨start, evolves, serial, unseen, ran⟩
    · exact stops.elim
    obtain ⟨events, grown, since⟩ := evolves.awaitsRelease reached.consistent waits
    rcases since with returned | ⟨unlaunched, now, waits⟩
    · exact ⟨start, finish, events, ran, later, grown, .inl returned⟩
    · obtain ⟨own, grown', retries⟩ := waits.retried serial.consistent stops unseen ran
      exact ⟨start, finish, events, ran, later, grown,
        .inr ⟨unlaunched, now, own, waits.waiting, grown', retries⟩⟩

/-- STOPPED means stopped. -/
theorem stopped_means_released (environment : Environment) (service : ReactorService) :
    StoppedMeansReleased environment service where
  released reached stored stopped evidence := by
    have start : Reached environment service (Pool.initial State.initial) := .refl
    have evolves := (start.evolves reached).1
    have here := Database.slot_of_getDeployment stored
    obtain ⟨slot, there, recorded⟩ := evolves.evidenceKept _ _ evidence
    rw [here, Option.some.injEq] at there
    subst there
    exact evolves.releasedSinceLaunch _ _ _ here stopped recorded
  unstopped failed := by
    obtain ⟨endpoint, slot, url, waits⟩ := failed.awaits
    exact ⟨endpoint, url, waits.unstopped (Reachable.step failed.reached failed.step)⟩

namespace Sample

def busy : ServingEngineFailure where
  detail := "the engine is busy"
  status := 503

/-- The call after the three of a launch is the first stop, which is refused. -/
def reluctant : EngineScript
  | state, .stop _ _ _ _ _ =>
      if (exchanges state.journal).length = 3 then .error (.serving busy) else replies.stop
  | state, call => replies.engines state call

def reluctantly : Script (Sample.service.system .unrestricted) :=
  reluctant.script Sample.service .unrestricted fun _ _ => trivial

/-- A stop is about to call the engine, and another stop waits for the lock. -/
def stopping : Pool (Sample.service.system .unrestricted) :=
  reluctantly.play (Pool.initial State.initial)
    [.start (.create request none), .run 0 30, .start (.stop firstId), .start (.stop firstId),
      .run 1 9]

def refused : Pool (Sample.service.system .unrestricted) := reluctantly.moves 1 1 stopping

/-- The stop that was refused ends, and then the other one. -/
def retried : Pool (Sample.service.system .unrestricted) :=
  reluctantly.play refused [.run 1 20, .run 2 20]

theorem refused_fails : FailedStop engine firstId handle.executionRef handle.endpointUrl stopping
    refused ⟨1, .stop firstId⟩ artifact.digest none (.serving busy) where
  reached := reluctantly.reaches_of_play _ _
  step := Script.step_of_moves rfl
  failed := rfl
  stops := .inl ⟨firstId, rfl⟩

end Sample

/-- The stop that waited asks the engine again, and only then the deployment is STOPPED. -/
theorem stopped_means_released_retried :
    (∃ endpoint : Endpoint, endpoint.url = Sample.handle.endpointUrl ∧
      Unstopped ⟨Sample.engine, Sample.firstId, Sample.handle.executionRef, endpoint⟩
        Sample.refused) ∧
    Sample.refused.threads[2]? = some (Thread.start (Command.stop Sample.firstId)) ∧
    ((State.database Sample.retried.state).getDeployment Sample.firstId).map
      Deployment.observedState = some .stopped ∧
    (exchanges (State.journal Sample.retried.state)).map
      (Exchange.stopReturned Sample.firstId Sample.handle.executionRef) =
      [false, false, false, false, true] :=
  ⟨(stopped_means_released .unrestricted Sample.service).unstopped Sample.refused_fails, rfl, rfl,
    rfl⟩

end CyreneReactor
