import CyreneReactor.Lifecycle.Discipline
import CyreneReactor.Service.Script

namespace CyreneReactor

open Interaction ReactorService

/-! What a reader of the store can rely on about the documents it finds there,
whatever the engines answer and however the commands interleave.
-/

section

variable {environment : Environment} {service : ReactorService}
variable {pool next later : Pool (service.system environment)}

theorem Reached.everySlot {good : Slot → Prop}
    (created : ∀ request id now, good ⟨newDeployment request id now, none, none⟩)
    (preserved : ∀ old new, Transition old new → good old → good new)
    (reached : Reached environment service pool) {id : Uuid} {slot : Slot}
    (here : (State.database pool.state).slot id = some slot) : good slot := by
  have start : Reached environment service (Pool.initial State.initial) := .refl
  exact (start.evolves reached).1.everySlot created preserved here

end

/-- How the stored `observed_state` of a deployment may change; there is no row
before the first state, and rows are never removed. -/
def observedStep : Option ObservedState → Option ObservedState → Prop
  | none, none => True
  | none, some new => new = .starting
  | some _, none => False
  | some old, some new => new = old ∨ Transition.observedChange old new

theorem observedStep_refl (state : Option ObservedState) : observedStep state state := by
  cases state with
  | none => trivial
  | some state => exact .inl rfl

theorem SlotStep.observed {service : ReactorService} {event : Event} {journal : List Event}
    {id : Uuid} {old new : Option Slot} (step : SlotStep service event journal id old new) :
    observedStep (old.map fun slot => slot.deployment.observedState)
      (new.map fun slot => slot.deployment.observedState) := by
  cases step with
  | same => exact observedStep_refl _
  | created => rfl
  | written write => exact write.transition.observed

/-- Every document changes its state along the lifecycle, and is coherent after. -/
structure Database.FollowsLifecycle (before after : Database) : Prop where
  changes : ∀ id, observedStep ((before.getDeployment id).map Deployment.observedState)
    ((after.getDeployment id).map Deployment.observedState)
  coherent : ∀ deployment ∈ after.deployments.rows, deployment.Coherent

/-- Every step of every interleaving follows the lifecycle. -/
theorem persisted_states_follow_lifecycle (environment : Environment) (service : ReactorService)
    {pool next : Pool (service.system environment)} (reached : Reached environment service pool)
    (step : Step pool next) :
    (State.database pool.state).FollowsLifecycle (State.database next.state) := by
  refine ⟨fun id => ?_, fun deployment stored => ?_⟩
  · rcases (reached.step step).1.slot reached.consistent id with unmoved | ⟨event, changes⟩
    · have same := congrArg (Option.map fun slot => slot.deployment.observedState) unmoved
      simp only [Database.slot, Option.map_map] at same
      have unchanged := observedStep_refl
        (((State.database pool.state).getDeployment id).map Deployment.observedState)
      exact same ▸ unchanged
    · have observed := changes.observed
      simp only [Database.slot, Option.map_map] at observed
      exact observed
  · have after : Reached environment service next := Reachable.step reached step
    obtain ⟨slot, here, rfl⟩ := Database.slot_of_mem stored
    exact after.everySlot (fun request id now => newDeployment_coherent request id now)
      (fun _ _ transition coherent => transition.coherent coherent) here

/-- A pool in which `create` has been given so many steps. -/
def Sample.creating (fuel : Nat) : Pool (Sample.service.system .unrestricted) :=
  rehearse Sample.replies.engines (fun _ _ => trivial) fuel (.create Sample.request (some "key"))
    (Pool.initial State.initial)

theorem Sample.creating_reached (fuel : Nat) :
    Reached .unrestricted Sample.service (Sample.creating fuel) :=
  rehearse_reaches (Pool.initial_quiescent _)

theorem persisted_states_follow_lifecycle_creating :
    (State.database (Sample.creating 18).state).FollowsLifecycle
      (State.database (Sample.creating 19).state) :=
  persisted_states_follow_lifecycle .unrestricted Sample.service (Sample.creating_reached 18)
    (rehearse_step (Pool.initial_quiescent _) (by decide))

/-- No `prepare` returns an execution, under a valid name, for a deployment that
has no endpoint yet: the early save of `_launch` keeps the version, and changes the
document just there. -/
def Environment.preparesAddressed : Environment := fun database op answer =>
  match op, answer with
  | .port _ (.prepare id), .ok prepared =>
      ∀ handle, (show Option EngineHandle from prepared) = some handle → handle.model ≠ some "" →
        ∀ slot, database.slot id = some slot → slot.endpoint.isSome = true
  | _, _ => True

/-- A later document has a greater version, or is the same document. -/
def Deployment.Supersedes (new old : Deployment) : Prop :=
  old.resourceVersion ≤ new.resourceVersion ∧
    (old.resourceVersion = new.resourceVersion → old = new)

theorem Deployment.Supersedes.trans {first second third : Deployment}
    (later : third.Supersedes second) (earlier : second.Supersedes first) :
    third.Supersedes first := by
  obtain ⟨grown, same⟩ := earlier
  obtain ⟨grown', same'⟩ := later
  exact ⟨grown.trans grown', fun equal => (same (by omega)).trans (same' (by omega))⟩

/-- A write over an addressed deployment is noticed by its version. -/
theorem LawfulWrite.supersedes {caller : Caller Command} {state : State} {id : Uuid}
    {old new : Slot} (write : LawfulWrite caller state.journal old new)
    (consistent : Consistent state) (witnessed : Witnessed .preparesAddressed state)
    (here : state.database.slot id = some old) : new.deployment.Supersedes old.deployment := by
  refine ⟨write.transition.version_le, fun equal => ?_⟩
  rcases write.transition.version with bumped | ⟨same, _, _, endpoint, placed, rewritten⟩
  · exact absurd equal bumped.ne
  have key : old.deployment.id = id := (Database.slot_eq_some here).2.1
  obtain ⟨⟨engine, call, answer⟩, member, announces⟩ := write.announced same
  -- The announcement was answered for an addressed deployment.
  have addressed : old.endpoint.isSome = true := by
    cases call with
    | prepare target =>
        match answer, announces with
        | .ok (some handle), announces =>
            simp only [Exchange.announces, Bool.and_eq_true, beq_iff_eq, bne_iff_ne] at announces
            obtain ⟨about, valid⟩ := announces
            have admits := witnessed id old here ⟨engine, .prepare target, .ok (some handle)⟩
              (key ▸ member) (about.trans key)
            obtain ⟨database, stored, admitted⟩ := admits
            have stored : database.slot target = some old := stored
            exact admitted handle rfl valid old stored
    | start | verifyServedModel | inspect | stop => cases announces
  obtain ⟨previous, stored⟩ := Option.isSome_iff_exists.mp addressed
  -- So the endpoint keeps its id, and the document with it.
  have named : old.deployment.endpointId = some previous.id :=
    (Inside.start consistent here).names stored
  have kept : endpoint.id = previous.id := by
    rcases write.transition.endpoint with unchanged | ⟨next, present, _, follows⟩
    · rw [placed, stored, Option.some.injEq] at unchanged
      rw [unchanged]
    · rw [placed, Option.some.injEq] at present
      rw [present]
      exact (follows previous stored).1
  rw [rewritten, kept, ← named]

/-- Where only addressed deployments are prepared, the version identifies the document. -/
theorem resourceVersion_identifies_document (service : ReactorService)
    {pool later : Pool (service.system .preparesAddressed)}
    (reached : Reached .preparesAddressed service pool) (run : Relation.ReflTransGen Step pool later)
    {id : Uuid} {old : Deployment} (stored : (State.database pool.state).getDeployment id = some old) :
    ∃ new, (State.database later.state).getDeployment id = some new ∧
      old.resourceVersion ≤ new.resourceVersion ∧
      (old.resourceVersion = new.resourceVersion → old = new) := by
  have start : Reached .preparesAddressed service (Pool.initial State.initial) := .refl
  have here := Database.slot_of_getDeployment stored
  have kept := (reached.evolves run).1.invariant
    (fun state => Witnessed .preparesAddressed state ∧
      ∃ slot, state.database.slot id = some slot ∧ slot.deployment.Supersedes old)
    ?_ reached.consistent
    ⟨(start.evolves reached).1.witnessed, _, here, Nat.le_refl _, fun _ => rfl⟩
  · obtain ⟨_, _, slot, found, supersedes⟩ := kept
    exact ⟨slot.deployment, (Database.slot_eq_some found).1, supersedes⟩
  · intro caller op state answer _ consistent before admitted answers lawful
    obtain ⟨witnessed, slot, found, supersedes⟩ := before
    refine ⟨witnessed.step consistent admitted answers lawful, ?_⟩
    have step : SlotStep service ⟨caller, op, answer⟩ state.journal id (state.database.slot id)
        ((state.after caller true op answer).database.slot id) :=
      lawful.slotStep consistent answers id
    rw [found] at step
    generalize (state.after caller true op answer).database.slot id = after at step
    cases step with
    | same => exact ⟨slot, rfl, supersedes⟩
    | @written _ new write =>
        exact ⟨new, rfl, (write.supersedes consistent witnessed found).trans supersedes⟩

theorem Sample.replies_prepare_nothing (state : State) (op : Op) :
    Environment.preparesAddressed state.database op (Sample.replies.engines.reply state op) := by
  cases op with
  | port engine call =>
      cases call with
      | prepare id => exact fun handle same => by cases same
      | start | verifyServedModel | inspect | stop => trivial
  | utcNow | uuid4 | store | activity => trivial

/-- The same `create` where `prepare` is only asked about addressed deployments. -/
def Sample.unannounced (fuel : Nat) : Pool (Sample.service.system .preparesAddressed) :=
  rehearse Sample.replies.engines Sample.replies_prepare_nothing fuel
    (.create Sample.request none) (Pool.initial State.initial)

theorem resourceVersion_identifies_document_unannounced :
    ∃ new, (State.database (Sample.unannounced 22).state).getDeployment Sample.firstId = some new ∧
      (newDeployment Sample.request Sample.firstId .epoch).resourceVersion ≤ new.resourceVersion ∧
      ((newDeployment Sample.request Sample.firstId .epoch).resourceVersion = new.resourceVersion →
        newDeployment Sample.request Sample.firstId .epoch = new) := by
  have created : (State.database (Sample.unannounced 6).state).getDeployment Sample.firstId =
      some (newDeployment Sample.request Sample.firstId .epoch) := rfl
  have reached : Reached .preparesAddressed Sample.service (Sample.unannounced 6) :=
    rehearse_reaches (Pool.initial_quiescent _)
  have run : Relation.ReflTransGen Step (Sample.unannounced 6) (Sample.unannounced 22) :=
    rehearse_resumes (Pool.initial_quiescent _) (by decide)
  exact resourceVersion_identifies_document Sample.service reached run created

/-- A `create` to which `prepare` announces an execution. -/
def Sample.announced (fuel : Nat) : Pool (Sample.service.system .unrestricted) :=
  rehearse { Sample.replies with prepare := .ok (some Sample.handle) : Replies }.engines
    (fun _ _ => trivial) fuel (.create Sample.request none) (Pool.initial State.initial)

/-- The early save changes the document of a new deployment and keeps its version. -/
theorem resourceVersion_kept_by_prepare :
    Reached .unrestricted Sample.service (Sample.announced 14) ∧
      Relation.ReflTransGen Step (Sample.announced 14) (Sample.announced 15) ∧
      ∃ old new,
        (State.database (Sample.announced 14).state).getDeployment Sample.firstId = some old ∧
        (State.database (Sample.announced 15).state).getDeployment Sample.firstId = some new ∧
        old.resourceVersion = new.resourceVersion ∧ old ≠ new := by
  refine ⟨rehearse_reaches (Pool.initial_quiescent _),
    rehearse_resumes (Pool.initial_quiescent _) (by decide),
    newDeployment Sample.request Sample.firstId .epoch,
    { newDeployment Sample.request Sample.firstId .epoch with endpointId := some ⟨1⟩ },
    rfl, rfl, rfl, fun same => ?_⟩
  cases congrArg Deployment.endpointId same

/-- A later endpoint row is the next version of the same endpoint, or unchanged. -/
structure Endpoint.Continues (new old : Endpoint) : Prop where
  id : new.id = old.id
  createdAt : new.createdAt = old.createdAt
  grown : old.resourceVersion ≤ new.resourceVersion
  changed : new ≠ old → old.resourceVersion < new.resourceVersion

theorem Endpoint.Continues.refl (endpoint : Endpoint) : endpoint.Continues endpoint :=
  ⟨rfl, rfl, Nat.le_refl _, fun changed => absurd rfl changed⟩

theorem Endpoint.Continues.trans {first second third : Endpoint}
    (later : third.Continues second) (earlier : second.Continues first) :
    third.Continues first where
  id := later.id.trans earlier.id
  createdAt := later.createdAt.trans earlier.createdAt
  grown := earlier.grown.trans later.grown
  changed changed := by
    by_cases same : third = second
    · exact same ▸ earlier.changed (same ▸ changed)
    · exact Nat.lt_of_le_of_lt earlier.grown (later.changed same)

/-- Once a slot has an endpoint, it keeps it. -/
theorem Transition.endpointContinues {old new : Slot} (transition : Transition old new)
    {previous : Endpoint} (stored : old.endpoint = some previous) :
    ∃ endpoint, new.endpoint = some endpoint ∧ endpoint.Continues previous := by
  rcases transition.endpoint with unchanged | ⟨endpoint, present, _, follows⟩
  · exact ⟨previous, unchanged.trans stored, .refl previous⟩
  · obtain ⟨id, createdAt, bumped⟩ := follows previous stored
    exact ⟨endpoint, present, id, createdAt, by omega, fun _ => by omega⟩

theorem Evolves.endpoint {environment : Environment} {service : ReactorService}
    {state next : State} (evolves : Evolves environment service state next)
    (consistent : Consistent state) {id : Uuid} {slot : Slot} {previous : Endpoint}
    (here : state.database.slot id = some slot) (stored : slot.endpoint = some previous) :
    ∃ new endpoint, next.database.slot id = some new ∧ new.endpoint = some endpoint ∧
      endpoint.Continues previous := by
  obtain ⟨new, found, transitions⟩ := evolves.slot consistent here
  have continues : ∃ endpoint, new.endpoint = some endpoint ∧ endpoint.Continues previous := by
    clear found
    induction transitions with
    | refl => exact ⟨previous, stored, .refl previous⟩
    | tail _ transition ih =>
        obtain ⟨middle, present, earlier⟩ := ih
        obtain ⟨endpoint, present', later⟩ := transition.endpointContinues present
        exact ⟨endpoint, present', later.trans earlier⟩
  obtain ⟨endpoint, present, continues⟩ := continues
  exact ⟨new, endpoint, found, present, continues⟩

/-- The slot an endpoint row belongs to. -/
theorem Database.Linked.slot_of_endpoint {database : Database} (linked : database.Linked)
    {endpoint : Endpoint} (stored : endpoint ∈ database.endpoints.rows) :
    ∃ slot, database.slot endpoint.deploymentId = some slot ∧ slot.endpoint = some endpoint := by
  obtain ⟨deployment, present, owner, names⟩ := linked.owned endpoint stored
  obtain ⟨slot, here, rfl⟩ := Database.slot_of_mem present
  rw [owner] at here
  refine ⟨slot, here, ?_⟩
  obtain ⟨_, _, found, _⟩ := Database.slot_eq_some here
  rw [found, names]
  exact Database.getEndpoint_of_mem stored

/-- Every endpoint belongs to the deployment that names it, no other row does, and
later rows continue both. -/
structure Database.KeepsEndpoints (before after : Database) : Prop where
  named : ∀ deployment ∈ before.deployments.rows, ∀ id, deployment.endpointId = some id →
    (∃ endpoint ∈ before.endpoints.rows,
      endpoint.id = id ∧ endpoint.deploymentId = deployment.id) ∧
    ∃ new ∈ after.deployments.rows, new.id = deployment.id ∧ new.endpointId = some id
  unique : ∀ first ∈ before.endpoints.rows, ∀ second ∈ before.endpoints.rows,
    first.deploymentId = second.deploymentId → first = second
  continued : ∀ endpoint ∈ before.endpoints.rows, ∃ new ∈ after.endpoints.rows,
    new.deploymentId = endpoint.deploymentId ∧ new.Continues endpoint

/-- The endpoint of a deployment is never replaced by another. -/
theorem endpoint_identity_stable (environment : Environment) (service : ReactorService)
    {pool later : Pool (service.system environment)} (reached : Reached environment service pool)
    (run : Relation.ReflTransGen Step pool later) :
    (State.database pool.state).KeepsEndpoints (State.database later.state) := by
  have linked := reached.consistent.linked
  obtain ⟨evolves, after⟩ := reached.evolves run
  -- What becomes of the endpoint of a slot, with the rows that carry it.
  have continued : ∀ id slot previous, (State.database pool.state).slot id = some slot →
      slot.endpoint = some previous → ∃ new endpoint,
        new ∈ (State.database later.state).deployments.rows ∧ new.id = id ∧
        new.endpointId = some previous.id ∧
        endpoint ∈ (State.database later.state).endpoints.rows ∧
        endpoint.deploymentId = id ∧ endpoint.Continues previous := by
    intro id slot previous here stored
    obtain ⟨new, endpoint, found, present, continues⟩ :=
      evolves.endpoint reached.consistent here stored
    obtain ⟨lookup, key, _⟩ := Database.slot_eq_some found
    rcases after.consistent.linked.endpoint_of_slot found with
      ⟨_, absent⟩ | ⟨row, names, there, owner, stored'⟩
    · rw [absent] at present
      cases present
    · rw [there, Option.some.injEq] at present
      subst present
      exact ⟨new.deployment, row, (Database.getDeployment_mem lookup).1, key,
        by rw [names, continues.id], (Database.getEndpoint_mem stored').1, owner, continues⟩
  refine ⟨fun deployment stored id names => ?_, fun first stored second stored' same => ?_,
    fun endpoint stored => ?_⟩
  · obtain ⟨endpoint, present, rfl, owner⟩ := linked.present deployment stored id names
    refine ⟨⟨endpoint, present, rfl, owner⟩, ?_⟩
    obtain ⟨slot, here, found⟩ := linked.slot_of_endpoint present
    obtain ⟨new, _, added, key, named, _⟩ := continued _ slot endpoint here found
    exact ⟨new, added, key.trans owner, named⟩
  · obtain ⟨slot, here, found⟩ := linked.slot_of_endpoint stored
    obtain ⟨slot', here', found'⟩ := linked.slot_of_endpoint stored'
    rw [← same, here, Option.some.injEq] at here'
    subst here'
    rw [found, Option.some.injEq] at found'
    exact found'
  · obtain ⟨slot, here, found⟩ := linked.slot_of_endpoint stored
    obtain ⟨_, new, _, _, _, added, owner, continues⟩ := continued _ slot endpoint here found
    exact ⟨new, added, owner, continues⟩

theorem endpoint_identity_stable_announced :
    (State.database (Sample.announced 15).state).KeepsEndpoints
      (State.database (Sample.announced 22).state) :=
  endpoint_identity_stable .unrestricted Sample.service
    (rehearse_reaches (Pool.initial_quiescent _))
    (rehearse_resumes (Pool.initial_quiescent _) (by decide))

end CyreneReactor
