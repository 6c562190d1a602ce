import CyreneReactor.Guarantees.LaunchVerdicts

namespace CyreneReactor

open Interaction ReactorService

/-! No execution that was started is dropped, as far as the failures name it.

A launch that fails records the execution its failure names, not the one its start
returned.
-/

variable {environment : Environment} {service : ReactorService}

/-- The execution is on record with an endpoint. -/
structure Slot.Keeps (slot : Slot) (handle : EngineHandle) : Prop where
  evidence : slot.executionRef = some handle.executionRef
  addressed : slot.endpoint.isSome = true

/-- A stop naming the execution returned. -/
def Released (id : Uuid) (handle : EngineHandle) (after : List Exchange) : Prop :=
  ∃ exchange ∈ after, exchange.stopReturned id handle.executionRef = true

/-- A stop of the deployment calls the engine it is bound to for this execution. -/
def CallsStop (environment : Environment) (service : ReactorService) (slot : Slot) (id : Uuid)
    (handle : EngineHandle) : Prop :=
  ∀ {index : Nat} {start finish : State} {engine : Engine} {result : Except Raised Deployment},
    Consistent start → start.database.slot id = some slot →
    service.engineFor slot.deployment.servingBindingId = .ok engine →
    ((runtimeModelVersion slot.deployment).isSome = true → engine.takesModelVersion .stop = true) →
    Alone environment service ⟨index, .stop id⟩ 0 (service.body (.stop id)).attempt start
      0 (.pure result) finish →
    ∃ own endpoint identity answer, slot.endpoint = some endpoint ∧
      finish.journal = start.journal ++ own ∧
      exchanges own =
        [⟨engine, stopCall slot.deployment handle.executionRef endpoint.url identity, answer⟩]

theorem Slot.Keeps.callsStop {slot : Slot} {id : Uuid} {handle : EngineHandle}
    (keeps : slot.Keeps handle) (running : slot.deployment.observedState ≠ .stopped) :
    CallsStop environment service slot id handle := by
  intro index start finish engine result consistent here bound takes ran
  obtain ⟨endpoint, address⟩ := Option.isSome_iff_exists.mp keeps.addressed
  obtain ⟨calls, new, recent, stops, inside⟩ := Alone.stop consistent here ran
  obtain ⟨own, grown, made⟩ := inside.grown
  obtain ⟨identity, answer, called⟩ :=
    stops.callsEngine running keeps.evidence address bound takes
  exact ⟨own, endpoint, identity, answer, address, grown, made.trans called⟩

section Starting

variable {slot new : Slot} {calls before after : List Exchange} {result : Except Raised Deployment}
variable {first : Exchange} {handle : EngineHandle}

/-- Nothing but a launch starts an execution. -/
theorem Exchange.starts_of_started (started : first.started? = some handle) :
    first.starts = true := by
  obtain ⟨_, call, answer⟩ := first
  cases call with
  | start => rfl
  | prepare | verifyServedModel | inspect | stop => cases started

/-- A deployment is not STOPPED when its launch is over. -/
theorem Launched.running {before : Option Slot}
    (launched : Launched environment service before result new calls) :
    new.deployment.observedState ≠ .stopped := by
  intro stopped
  obtain ⟨settled, starting⟩ := launched.settled
  by_cases concludes : Concludes calls
  · rcases settled.mpr concludes with ready | failed
    · rw [stopped] at ready
      cases ready
    · rw [stopped] at failed
      cases failed
  · have still := starting.mpr concludes
    rw [stopped] at still
    cases still

/-- What is on record of a started execution when its launch is over. -/
theorem Launched.evidence {origin : Option Slot}
    (launched : Launched environment service origin result new (before ++ first :: after))
    (started : first.started? = some handle) :
    new.executionRef = some handle.executionRef ↔
      Recorded (announcedOr before (origin.bind Slot.executionRef)) handle
        (before ++ first :: after) after := by
  generalize made : before ++ first :: after = calls at launched
  cases launched with
  | @intro slot release calls released evidence starting bound launches =>
      obtain ⟨middle, rfl, rfl⟩ := split_started
        (fun exchange member => (released exchange member).1.unstarted) made.symm started
      have unannounced : announcedOr (release ++ middle) (origin.bind Slot.executionRef) =
          announcedOr middle (origin.bind Slot.executionRef) := by
        have none : release.findSome? Exchange.announced? = none :=
          List.findSome?_eq_none_iff.mpr fun exchange member => (released exchange member).2
        simp only [announcedOr, List.findSome?_append, none, Option.none_or]
      rw [launches.evidence started, evidence, unannounced]
      simp only [Recorded, concludes_append fun exchange member => (released exchange member).1]

/-- The execution a launch started is one of its deployment. -/
theorem Launched.about {origin : Option Slot}
    (launched : Launched environment service origin result new calls) (member : first ∈ calls)
    (started : first.started? = some handle) : first.call.deploymentId = new.deployment.id := by
  have settled : ∀ {slot : Slot} {verdict : Verdict}, Settles slot verdict new result →
      new.deployment.id = slot.deployment.id := by
    intro slot verdict settles
    cases settles <;> rfl
  have attempted : ∀ {slot : Slot} {engine : Engine} {model : ArtifactRef}
      {version : Option ModelVersionDocument} {made : List Exchange} {verdict : Verdict},
      Attempts environment slot engine model version made verdict → first ∈ made →
      first.call.deploymentId = slot.deployment.id := by
    intro slot engine model version made verdict attempts member
    obtain ⟨before, after, rfl⟩ := List.append_of_mem member
    obtain rfl := attempts.first started
    generalize same : [] ++ first :: after = made at attempts
    cases attempts with
    | unsupported => cases same
    | refused | mismatched | interrupted | unverified | verified =>
        cases same
        rfl
  obtain ⟨released, _, _, _, launches⟩ := launched
  rcases List.mem_append.mp member with earlier | member
  · rw [(released first earlier).1.unstarted] at started
    cases started
  have starts := Exchange.starts_of_started started
  cases launches with
  | unprepared prepares =>
      rw [prepares.unstarted first member] at starts
      cases starts
  | launched prepares _ _ attempts settles =>
      rcases List.mem_append.mp member with earlier | later
      · rw [prepares.unstarted first earlier] at starts
        cases starts
      · rw [settled settles]
        exact attempted attempts later

end Starting

/-- A command that started an execution launched its deployment. -/
theorem Completed.started {index : Nat} {command : Command} {result : Except Raised Deployment}
    {start finish : State} {own : List Event} {first : Exchange} {handle : EngineHandle}
    (completed : Completed environment service index command result start finish own)
    (locks : ∀ id, command ≠ .get id) (member : first ∈ exchanges own)
    (started : first.started? = some handle) :
    ∃ new, finish.database.slot first.call.deploymentId = some new ∧
      Launched environment service (start.database.slot first.call.deploymentId) result new
        (exchanges own) := by
  have starts := Exchange.starts_of_started started
  cases (completed.served locks).1 with
  | idle idle =>
      obtain ⟨events, grown, quiet⟩ := idle.grown
      rw [completed.grown, List.append_cancel_left_eq] at grown
      obtain ⟨event, present, exchanged⟩ := List.mem_filterMap.mp member
      rw [(quiet event (grown ▸ present)).1] at exchanged
      cases exchanged
  | @committed id new calls recent commits inside =>
      obtain ⟨events, grown, made⟩ := inside.grown
      rw [completed.grown, List.append_cancel_left_eq] at grown
      subst grown
      rw [made] at member ⊢
      suffices launched : Launched environment service (start.database.slot id) result new calls by
        obtain rfl : id = first.call.deploymentId :=
          inside.id_eq.symm.trans (launched.about member started).symm
        exact ⟨new, inside.here, launched⟩
      generalize found : start.database.slot id = before at commits
      cases commits with
      | created bound launches => exact .of_create bound launches
      | replayed reads =>
          have observes : first.inspects = true := by
            cases reads with
            | unchanged observes | reconciled observes => exact observes first member
          obtain ⟨_, call, answer⟩ := first
          cases call with
          | inspect => cases starts
          | prepare | start | verifyServedModel | stop => cases observes
      | stopped stops =>
          rw [stops.unstarted first member] at starts
          cases starts
      | reconciled => exact absurd member List.not_mem_nil
      | restarted restarts =>
          cases restarts with
          | conflict => exact absurd member List.not_mem_nil
          | kept _ stops =>
              rw [stops.unstarted first member] at starts
              cases starts
          | relaunched _ stops launches =>
              exact .of_restart (completed.serial.evolves.bound found) stops launches

/-- What a command started after `pool` and over in `last` left of the executions its
starts returned. -/
structure ExecutionsRetained (environment : Environment) (service : ReactorService)
    (pool last : Pool (service.system environment)) : Prop where
  finished : ∀ {index depth : Nat} {command : Command} {result : Except Raised Deployment},
    pool.threads.length ≤ index → last.threads[index]? = some ⟨command, depth, .pure result⟩ →
    (∀ id, command ≠ .get id) →
    ∃ start finish own, Evolves environment service pool.state start ∧
      Evolves environment service finish last.state ∧
      Completed environment service index command result start finish own ∧
      ∀ before first after id handle, exchanges own = before ++ first :: after →
        first.started? = some handle → first.call.deploymentId = id →
        ∃ slot, finish.database.slot id = some slot ∧
          (slot.Keeps handle ∨ Released id handle after ↔
            Recorded (announcedOr before ((start.database.slot id).bind Slot.executionRef)) handle
              (exchanges own) after ∨ Released id handle after) ∧
          (slot.Keeps handle → CallsStop environment service slot id handle)

/-- A started execution is kept on record or was released exactly where the failures of
its launch name it, or the record did before. -/
theorem executions_retained_iff (environment : Environment) (service : ReactorService)
    {pool last : Pool (service.system environment)} (reached : Reached environment service pool)
    (run : Relation.ReflTransGen Step pool last) :
    ExecutionsRetained environment service pool last := by
  constructor
  intro index depth command result started found locks
  obtain ⟨start, finish, own, before, after, completed⟩ :=
    reached.completed run started found locks
  refine ⟨start, finish, own, before, after, completed, ?_⟩
  rintro earlier first later id handle made returned rfl
  obtain ⟨slot, here, launched⟩ :=
    completed.started locks (by rw [made]; simp) returned
  refine ⟨slot, here, ?_, fun keeps => keeps.callsStop launched.running⟩
  rw [made] at launched ⊢
  have evidence := launched.evidence returned
  refine or_congr_left ⟨fun keeps => evidence.mp keeps.evidence, fun recorded => ?_⟩
  have present := evidence.mpr recorded
  have consistent := (completed.served locks).2.consistent completed.consistent
  exact ⟨present, consistent.linked.endpoint_of_evidence here present⟩

theorem executions_retained_sampled :
    ExecutionsRetained .unrestricted Sample.service (Pool.initial State.initial)
      (Sample.created Sample.engine Sample.replies) :=
  executions_retained_iff .unrestricted Sample.service .refl
    (rehearse_reaches (Pool.initial_quiescent _))

/-- The readback of a started execution fails, and so does its release. -/
def Sample.dropped : Pool (Sample.service.system .unrestricted) :=
  Sample.created Sample.engine { Sample.replies with
    verify := .error (.serving Sample.unreadable)
    stop := .error (.serving Sample.unreadable) }

/-- A launch is over whose execution was started and not released, and nothing is on
record of it. -/
theorem execution_dropped :
    Reached .unrestricted Sample.service Sample.dropped ∧ Sample.dropped.Quiescent ∧
      (exchanges (State.journal Sample.dropped.state)).filterMap Exchange.started? =
        [Sample.handle] ∧
      (exchanges (State.journal Sample.dropped.state)).all (fun exchange =>
        !exchange.stopReturned Sample.firstId Sample.handle.executionRef) = true ∧
      (State.database Sample.dropped.state).getExecutionRef Sample.firstId = none :=
  ⟨rehearse_reaches (Pool.initial_quiescent _), by decide, by rfl, by rfl, by rfl⟩

end CyreneReactor
