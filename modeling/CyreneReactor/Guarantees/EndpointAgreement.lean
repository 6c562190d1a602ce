import CyreneReactor.Exchange.Handoff
import CyreneReactor.Guarantees.Documents

namespace CyreneReactor

open Interaction ReactorService

/-! The endpoint row agrees with its deployment between commands.

The two rows part in a few places: where a launch gives up and leaves an endpoint
of an earlier step as it was, and where a stop fails while the endpoint is READY.
`SteadyAnswer` names these answers by the state they are given in.
-/

/-- A failure that names an execution and its address. -/
def ServingEngineFailure.Evident (failure : ServingEngineFailure) : Prop :=
  failure.executionRef ≠ none ∧ failure.endpointUrl ≠ none

def Slot.Retired (slot : Slot) : Prop :=
  ∃ endpoint, slot.endpoint = some endpoint ∧ endpoint.state = .retired

def Slot.Serving (slot : Slot) : Prop :=
  ∃ endpoint, slot.endpoint = some endpoint ∧ endpoint.state = .ready

/-- The deployment is composed and the engine cannot start it. -/
def Unstartable (slot : Slot) (engine : Engine) : Prop :=
  (runtimeModelVersion slot.deployment).isSome = true ∧ engine.takesModelVersion .start = false

/-- The clean-up of a full model is refused before it calls the engine. -/
def Uncleanable (slot : Slot) (engine : Engine) : Prop :=
  runtimeModelVersion slot.deployment = none ∧ engine.takesModelVersion .stop = false

/-- A launch may give up with the failure: what is saved of it names the execution, and
where it cannot be saved the rows stay as they are. -/
def Slot.Bears (slot : Slot) (failure : ServingEngineFailure) : Prop :=
  (failure.storable = true → slot.endpoint = none ∨ failure.Evident) ∧
    (failure.storable = false → ¬slot.Retired)

/-- Answers, given while `slot` is stored, after which the two rows still agree. -/
def SteadyAnswer (slot : Slot) (engine : Engine) : (call : PortCall) → call.Answer → Prop
  | .prepare _, .error _ => slot.endpoint = none
  | .prepare _, .ok none => Unstartable slot engine → slot.endpoint = none
  | .prepare _, .ok (some handle) =>
      if handle.storable = true then ¬Unstartable slot engine else slot.endpoint = none
  | .start _ _ _ _, .error (.serving failure) => slot.Bears failure
  | .start _ _ _ _, .error _ => ¬slot.Retired
  | .start _ _ _ _, .ok handle =>
      (Identified (runtimeModelVersion slot.deployment) handle →
        handle.encodes = false ∨ handle.model = some "" ∧ engine.verifiesServedModel = false →
          ¬slot.Retired) ∧
      (¬Identified (runtimeModelVersion slot.deployment) handle →
        handle.referencesEncode = false → ¬slot.Retired)
  | .verifyServedModel _ _ _ _, .error (.serving failure) =>
      (Uncleanable slot engine ∧ ¬slot.Retired) ∨
        (¬Uncleanable slot engine ∧ slot.Bears failure)
  | .verifyServedModel _ _ _ _, .error _ => ¬slot.Retired
  | .verifyServedModel _ _ _ servedModel, .ok _ => servedModel = some "" → ¬slot.Retired
  | .stop _ _ _ _ _, .error raised =>
      if slot.deployment.observedState = .stopping then ¬slot.Serving
      else (∃ failure, raised = .serving failure ∧ failure.detailEncodes = true) ∨ ¬slot.Retired
  | .stop _ _ _ _ _, .ok _ => True
  | .inspect _ _ _ _ _, _ => True

/-- Runs in which every answer is steady, and no stop begins for a serving
deployment that its engine cannot stop. -/
def Steady (service : ReactorService) : Environment := fun database op answer =>
  match op, answer with
  | .port engine call, answer =>
      ∀ slot, database.slot call.deploymentId = some slot → SteadyAnswer slot engine call answer
  | .store (.saveDeployment deployment), _ =>
      deployment.observedState = .stopping → ∀ slot, database.slot deployment.id = some slot →
        slot.Serving → (runtimeModelVersion deployment).isSome = true →
          ∀ engine, service.engineFor deployment.servingBindingId = .ok engine →
            engine.takesModelVersion .stop = true
  | _, _ => True

variable {service : ReactorService}

theorem Steady.answered {slot : Slot} {exchange : Exchange}
    (admits : (Steady service).Admits slot exchange) :
    SteadyAnswer slot exchange.engine exchange.call exchange.answer := by
  obtain ⟨database, here, steady⟩ := admits
  exact steady slot here

structure Slot.Agrees (slot : Slot) : Prop where
  ready : ∀ endpoint, slot.endpoint = some endpoint →
    (endpoint.state = .ready ↔ slot.deployment.observedState = .ready)
  retired : ∀ endpoint, slot.endpoint = some endpoint →
    (endpoint.state = .retired ↔ slot.deployment.observedState = .stopped)
  failed : ∀ endpoint, slot.endpoint = some endpoint → slot.deployment.observedState = .failed →
    endpoint.state ≠ .provisioning

def Slot.Bound (service : ReactorService) (slot : Slot) : Prop :=
  ∃ engine, service.engineFor slot.deployment.servingBindingId = .ok engine

/-- A slot whose deployment is being launched. -/
structure Slot.Pending (slot : Slot) : Prop where
  starting : slot.deployment.observedState = .starting
  waiting : ∀ endpoint, slot.endpoint = some endpoint →
    endpoint.state = .retired ∨ endpoint.state = .provisioning

theorem Slot.Pending.agrees {slot : Slot} (pending : slot.Pending) (kept : ¬slot.Retired) :
    slot.Agrees := by
  have provisioning : ∀ endpoint, slot.endpoint = some endpoint →
      endpoint.state = .provisioning := by
    intro endpoint present
    rcases pending.waiting endpoint present with retired | provisioning
    · exact absurd ⟨endpoint, present, retired⟩ kept
    · exact provisioning
  refine ⟨fun endpoint present => ?_, fun endpoint present => ?_, fun endpoint _ failed => ?_⟩
  · simp [provisioning endpoint present, pending.starting]
  · simp [provisioning endpoint present, pending.starting]
  · rw [pending.starting] at failed
    cases failed

theorem Slot.agrees_of_state {slot : Slot} {endpoint : Endpoint}
    (present : slot.endpoint = some endpoint)
    (ready : endpoint.state = .ready ↔ slot.deployment.observedState = .ready)
    (retired : endpoint.state = .retired ↔ slot.deployment.observedState = .stopped)
    (failed : slot.deployment.observedState = .failed → endpoint.state ≠ .provisioning) :
    slot.Agrees := by
  have only : ∀ other, slot.endpoint = some other → other = endpoint := by
    intro other there
    rw [present, Option.some.injEq] at there
    exact there.symm
  exact ⟨fun other there => only other there ▸ ready, fun other there => only other there ▸ retired,
    fun other there => only other there ▸ failed⟩

theorem Slot.agrees_of_none {slot : Slot} (absent : slot.endpoint = none) : slot.Agrees := by
  refine ⟨?_, ?_, ?_⟩ <;>
    · intro endpoint present
      rw [absent] at present
      cases present

section Launching

variable {slot new : Slot} {calls : List Exchange}

theorem Prepares.keepsPending {outcome : Except Raised Unit} (pending : slot.Pending)
    (prepares : Prepares (Steady service) service slot calls new outcome) : new.Pending := by
  cases prepares with
  | unbound | refused | nothing | unsaved => exact pending
  | pending bound admits follows provisioning url named encodes =>
      refine ⟨pending.starting, fun endpoint present => ?_⟩
      cases present
      exact .inr provisioning

/-- A preparation that raises had no endpoint to leave behind. -/
theorem Prepares.unplaced {raised : Raised} (bound : slot.Bound service)
    (prepares : Prepares (Steady service) service slot calls new (.error raised)) :
    new.endpoint = none := by
  cases prepares with
  | unbound unbound =>
      obtain ⟨engine, bound⟩ := bound
      rw [bound] at unbound
      cases unbound
  | refused _ admits => exact Steady.answered admits
  | unsaved _ admits unsaved =>
      have steady := Steady.answered admits
      simp only [SteadyAnswer, unsaved, Bool.false_eq_true, if_false] at steady
      exact steady

/-- After a preparation only a model the engine can start has an endpoint. -/
theorem Prepares.startable {engine : Engine}
    (bound : service.engineFor slot.deployment.servingBindingId = .ok engine)
    (prepares : Prepares (Steady service) service slot calls new (.ok ())) :
    Unstartable new engine → new.endpoint = none := by
  cases prepares with
  | nothing bound' admits =>
      rw [bound, Except.ok.injEq] at bound'
      subst bound'
      exact Steady.answered admits
  | @pending engine' handle endpoint bound' admits follows provisioning url named encodes =>
      rw [bound, Except.ok.injEq] at bound'
      subst bound'
      have steady := Steady.answered admits
      have storable : handle.storable = true :=
        storable_of_named named encodes
      simp only [SteadyAnswer, if_pos storable] at steady
      exact fun unstartable => absurd unstartable steady

theorem Slot.bears_of_none {failure : ServingEngineFailure} (absent : slot.endpoint = none) :
    slot.Bears failure := by
  refine ⟨fun _ => .inl absent, fun _ retired => ?_⟩
  obtain ⟨endpoint, present, _⟩ := retired
  rw [absent] at present
  cases present

/-- What a verdict says about the endpoint it leaves behind. -/
def Verdict.Steady (slot : Slot) : Verdict → Prop
  | .aborted _ => ¬slot.Retired
  | .failed failure => slot.Bears failure
  | .verified handle => handle.storable = false → ¬slot.Retired

theorem Verdict.steady_ofRaised {raised : Raised}
    (failed : ∀ failure, raised = .serving failure → slot.Bears failure)
    (aborted : (∀ failure, raised ≠ .serving failure) → ¬slot.Retired) :
    (Verdict.ofRaised raised).Steady slot := by
  cases raised with
  | serving failure => exact failed failure rfl
  | product error => exact aborted fun _ same => by cases same
  | other kind => exact aborted fun _ same => by cases same

/-- A mismatch names the execution it was found in. -/
theorem identityMismatch_evident {version : ModelVersionDocument} {handle : EngineHandle}
    {cleanup : Except ServingEngineFailure Unit} :
    (identityMismatch version handle cleanup).Evident := by
  cases cleanup <;> exact ⟨nofun, nofun⟩

/-- A clean-up that leaves nothing to save finds no retired endpoint. -/
theorem Cleans.steady {engine : Engine} {handle : EngineHandle} {identity : String}
    {version : Option ModelVersionDocument} {cleanup : List Exchange} {raised : Raised}
    (starting : slot.deployment.observedState = .starting)
    (cleans : Cleans (CyreneReactor.Steady service) slot engine handle identity version cleanup
      (.error raised))
    (uncaught : ∀ failure, raised = .serving failure → failure.detailEncodes = false)
    (untyped : version = none → engine.takesModelVersion .stop = false → ¬slot.Retired) :
    ¬slot.Retired := by
  generalize outcome : (Except.error raised : Except Raised Unit) = result at cleans
  cases cleans with
  | unsupported composed refused =>
      rw [requireModelVersionKeyword, if_neg (by simp [refused])] at outcome
      cases outcome
      exact absurd (uncaught _ rfl) (by decide)
  | untyped full refused => exact untyped full refused
  | @called answer takes admits =>
      have steady := Steady.answered admits
      cases answer with
      | ok observation => cases outcome
      | error other =>
          cases outcome
          have running : ¬slot.deployment.observedState = .stopping := by simp [starting]
          simp only [SteadyAnswer, if_neg running] at steady
          rcases steady with ⟨failure, same, encodes⟩ | kept
          · rw [uncaught failure same] at encodes
            cases encodes
          · exact kept

/-- Every verdict on a pending slot is steady. -/
theorem Attempts.steady {engine : Engine} {model : ArtifactRef}
    {verdict : Verdict} (pending : slot.Pending)
    (startable : Unstartable slot engine → slot.endpoint = none)
    (attempts : Attempts (CyreneReactor.Steady service) slot engine model
      (runtimeModelVersion slot.deployment) calls verdict) : verdict.Steady slot := by
  cases attempts with
  | unsupported composed refused =>
      refine Slot.bears_of_none (startable ⟨composed, ?_⟩)
      cases takes : engine.takesModelVersion .start with
      | false => rfl
      | true =>
          rw [requireModelVersionKeyword, if_pos takes] at refused
          cases refused
  | @refused raised admits =>
      have steady := Steady.answered admits
      refine Verdict.steady_ofRaised (fun failure same => ?_) fun uncaught => ?_
      · subst same
        exact steady
      · cases raised with
        | serving failure => exact absurd rfl (uncaught failure)
        | product | other => exact steady
  | @mismatched document handle cleanup outcome admits composed other cleans =>
      have steady := Steady.answered admits
      have unidentified : ¬Identified (runtimeModelVersion slot.deployment) handle :=
        fun identified => other (identified document composed)
      have untyped : runtimeModelVersion slot.deployment = none →
          engine.takesModelVersion .stop = false → ¬slot.Retired := by
        intro full
        rw [composed] at full
        cases full
      cases outcome with
      | ok value =>
          refine ⟨fun _ => .inr identityMismatch_evident, fun unsaved => ?_⟩
          refine steady.2 unidentified (Bool.eq_false_iff.mpr fun encodes => ?_)
          exact Bool.eq_false_iff.mp unsaved
            (mismatch_storable.mpr ⟨encodes, fun _ same => by cases same⟩)
      | error raised =>
          cases raised with
          | serving failure =>
              refine ⟨fun _ => .inr identityMismatch_evident, fun unsaved => ?_⟩
              cases references : handle.referencesEncode with
              | false => exact steady.2 unidentified references
              | true =>
                  refine Cleans.steady pending.starting cleans (fun _ same => ?_) untyped
                  cases same
                  refine Bool.eq_false_iff.mpr fun encodes => Bool.eq_false_iff.mp unsaved ?_
                  refine mismatch_storable.mpr ⟨references, fun _ same => ?_⟩
                  cases same
                  exact encodes
          | product | other =>
              exact Cleans.steady pending.starting cleans (fun _ same => by cases same) untyped
  | @interrupted handle readback raised admits identified verifies uncaught =>
      cases verifies with
      | called offered admits =>
          have steady := Steady.answered admits
          cases raised with
          | serving failure => exact absurd rfl (uncaught failure)
          | product | other => exact steady
  | @unverified handle readback cleanup failure outcome admits identified verifies cleans =>
      cases verifies with
      | called offered admits =>
          have steady : (Uncleanable slot engine ∧ ¬slot.Retired) ∨
              (¬Uncleanable slot engine ∧ slot.Bears failure) :=
            Steady.answered admits
          -- A clean-up that is refused aborts, and every other one goes on to the handler.
          have bears : (∀ kind, outcome ≠ .error (.other kind)) → slot.Bears failure := by
            intro unrefused
            rcases steady with ⟨⟨full, refused⟩, _⟩ | ⟨_, bears⟩
            · cases cleans with
              | unsupported composed =>
                  rw [full] at composed
                  cases composed
              | untyped => exact absurd rfl (unrefused .typeError)
              | called takes =>
                  rw [refused] at takes
                  cases takes
            · exact bears
          have untyped : runtimeModelVersion slot.deployment = none →
              engine.takesModelVersion .stop = false → ¬slot.Retired := by
            intro full refused
            rcases steady with ⟨_, kept⟩ | ⟨cleanable, _⟩
            · exact kept
            · exact absurd ⟨full, refused⟩ cleanable
          cases outcome with
          | ok value => exact bears fun _ same => by cases same
          | error raised =>
              cases raised with
              | serving cleanup =>
                  have bears := bears fun _ same => by cases same
                  refine ⟨fun saved => bears.1 (compensated_storable.mp saved).1, fun unsaved => ?_⟩
                  · cases storable : failure.storable with
                    | false => exact bears.2 storable
                    | true =>
                        refine Cleans.steady pending.starting cleans (fun _ same => ?_) untyped
                        cases same
                        refine Bool.eq_false_iff.mpr fun encodes => ?_
                        exact Bool.eq_false_iff.mp unsaved
                          (compensated_storable.mpr ⟨storable, encodes⟩)
              | product | other =>
                  exact Cleans.steady pending.starting cleans (fun _ same => by cases same) untyped
  | @verified handle readback admits identified verifies =>
      intro unsaved
      have started := (Steady.answered admits).1 identified
      rcases unsaved_cases unsaved with refused | unnamed
      · exact started (.inl refused)
      · cases verifies with
        | absent absent => exact started (.inr ⟨unnamed, absent⟩)
        | called offered admits => exact Steady.answered admits unnamed

theorem Settles.agrees {verdict : Verdict} {result : Except Raised Deployment}
    (pending : slot.Pending) (steady : verdict.Steady slot)
    (settles : Settles slot verdict new result) : new.Agrees := by
  cases settles with
  | aborted => exact pending.agrees steady
  | failed unnamed encodes =>
      rcases steady.1 ((storable_of_unnamed unnamed).trans encodes) with absent | evident
      · exact Slot.agrees_of_none absent
      · rcases unnamed with missing | missing
        · exact absurd missing evident.1
        · exact absurd missing evident.2
  | failedWithEvidence execution address follows unhealthy url encodes =>
      refine Slot.agrees_of_state rfl ?_ ?_ ?_ <;> simp [unhealthy, failedDeployment]
  | unfailed unsaved => exact pending.agrees (steady.2 unsaved)
  | unready unsaved => exact pending.agrees (steady unsaved)
  | ready follows ready url named encodes =>
      refine Slot.agrees_of_state rfl ?_ ?_ ?_ <;> simp [ready, readyDeployment]

/-- A launch leaves rows that agree. -/
theorem Launches.agrees {result : Except Raised Deployment} (pending : slot.Pending)
    (bound : slot.Bound service)
    (launches : Launches (CyreneReactor.Steady service) service slot calls new result) :
    new.Agrees := by
  cases launches with
  | unprepared prepares => exact Slot.agrees_of_none (prepares.unplaced bound)
  | launched prepares bound _ attempts settles =>
      have prepared := prepares.keepsPending pending
      rw [← prepares.kept.2.2.2] at attempts
      exact settles.agrees prepared (attempts.steady prepared (prepares.startable bound))

theorem Launches.keepsBinding {result : Except Raised Deployment} {environment : Environment}
    (launches : Launches environment service slot calls new result) :
    new.deployment.servingBindingId = slot.deployment.servingBindingId := by
  cases launches with
  | unprepared prepares => exact prepares.kept.2.1
  | launched prepares _ _ _ settles =>
      refine Eq.trans ?_ prepares.kept.2.1
      cases settles <;> rfl

end Launching

section Sections

variable {slot new : Slot} {calls : List Exchange}

theorem Slot.stopped_agrees {stopping : Slot} (stoppedAt : Datetime) :
    (stopping.stopped stoppedAt).Agrees := by
  cases present : stopping.endpoint with
  | none => exact Slot.agrees_of_none (by simp [Slot.stopped, present])
  | some endpoint =>
      have there : (stopping.stopped stoppedAt).endpoint =
          some (retiredEndpoint endpoint stoppedAt) := by simp [Slot.stopped, present]
      refine Slot.agrees_of_state there ?_ ?_ ?_ <;>
        simp [Slot.stopped, retiredEndpoint, stoppedDeployment]

/-- A stop that fails found no READY endpoint. -/
theorem Releases.unserving {now : Datetime} {raised : Raised} (bound : slot.Bound service)
    (begins : (Steady service).AdmitsSave slot (stoppingDeployment slot.deployment now))
    (releases : Releases (Steady service) service (slot.stopping now) calls (.error raised)) :
    ¬slot.Serving := by
  generalize outcome : (Except.error raised : Except Raised Unit) = result at releases
  cases releases with
  | nothing => cases outcome
  | unbound _ _ unbound =>
      obtain ⟨engine, bound⟩ := bound
      rw [show (slot.stopping now).deployment.servingBindingId =
        slot.deployment.servingBindingId from rfl, bound] at unbound
      cases unbound
  | @unsupported _ _ engine failure _ _ bound' composed refused =>
      intro serving
      obtain ⟨database, here, steady⟩ := begins
      have takes := steady rfl slot here serving composed engine bound'
      rw [requireModelVersionKeyword, if_pos takes] at refused
      cases refused
  | @called _ _ _ _ answer _ _ _ _ _ admits =>
      cases answer with
      | ok observation => cases outcome
      | error other =>
          have steady := Steady.answered admits
          have stopping : (slot.stopping now).deployment.observedState = .stopping := rfl
          simp only [stopCall, SteadyAnswer, if_pos stopping] at steady
          exact steady

theorem Stops.agrees {result : Except Raised Deployment} (agrees : slot.Agrees)
    (bound : slot.Bound service) (stops : Stops (Steady service) service slot calls new result) :
    new.Agrees := by
  cases stops with
  | already => exact agrees
  | @kept _ now _ running begins releases =>
      have unserving := releases.unserving bound begins
      refine ⟨fun endpoint present => ?_, fun endpoint present => ?_, fun _ _ failed => by
        cases failed⟩
      · have kept : endpoint.state ≠ .ready := fun ready => unserving ⟨endpoint, present, ready⟩
        simp [Slot.stopping, stoppingDeployment, kept]
      · have kept : endpoint.state ≠ .retired := fun retired =>
          running ((agrees.retired endpoint present).mp retired)
        simp [Slot.stopping, stoppingDeployment, kept]
  | released => exact Slot.stopped_agrees _

theorem Stops.keepsBinding {result : Except Raised Deployment} {environment : Environment}
    (stops : Stops environment service slot calls new result) :
    new.deployment.servingBindingId = slot.deployment.servingBindingId := by
  cases stops <;> rfl

/-- A restart launches a deployment whose endpoint is retired. -/
theorem Slot.starting_pending {stopped : Slot} (agrees : stopped.Agrees)
    (ended : stopped.deployment.observedState = .stopped) (nodeRef : NodeRef) (now : Datetime) :
    (stopped.starting nodeRef now).Pending where
  starting := rfl
  waiting endpoint present := .inl ((agrees.retired endpoint present).mpr ended)

theorem Restarts.agrees {nodeRef : NodeRef} {version : Nat} {result : Except Raised Deployment}
    (agrees : slot.Agrees) (bound : slot.Bound service)
    (restarts : Restarts (Steady service) service nodeRef version slot calls new result) :
    new.Agrees ∧ new.Bound service := by
  cases restarts with
  | conflict => exact ⟨agrees, bound⟩
  | kept _ stops =>
      refine ⟨stops.agrees agrees bound, ?_⟩
      rw [Slot.Bound, stops.keepsBinding]
      exact bound
  | @relaunched _ _ stopped _ now _ _ stops launches =>
      have bound' : stopped.Bound service := by
        rw [Slot.Bound, stops.keepsBinding]
        exact bound
      have pending := Slot.starting_pending (stops.agrees agrees bound) stops.ended.2 nodeRef now
      refine ⟨launches.agrees pending bound', ?_⟩
      rw [Slot.Bound, launches.keepsBinding]
      exact bound'

theorem Reconciles.agrees (reconciles : Reconciles slot new) : new.Agrees := by
  obtain ⟨_, endpoint, observation, now, _, rfl⟩ := reconciles
  refine Slot.agrees_of_state rfl ?_ ?_ ?_ <;> cases ready : observation.ready <;>
    simp [reconciledDeployment, reconciledEndpoint, observedOf, endpointStateOf, ready]

theorem Reconciles.keepsBinding (reconciles : Reconciles slot new) :
    new.deployment.servingBindingId = slot.deployment.servingBindingId := by
  obtain ⟨_, endpoint, observation, now, _, rfl⟩ := reconciles
  rfl

theorem kept_agreement :
    Kept (Steady service) service fun slot => slot.Agrees ∧ slot.Bound service := by
  intro command id old calls new result commits before
  cases commits with
  | @created request _ id now _ _ _ bound launches =>
      have bound : Slot.Bound service ⟨newDeployment request id now, none, none⟩ := bound
      refine ⟨launches.agrees ⟨rfl, fun _ present => by cases present⟩ bound, ?_⟩
      rw [Slot.Bound, launches.keepsBinding]
      exact bound
  | replayed reads =>
      obtain ⟨agrees, bound⟩ := before _ rfl
      cases reads with
      | unchanged => exact ⟨agrees, bound⟩
      | reconciled _ reconciles =>
          refine ⟨reconciles.agrees, ?_⟩
          rw [Slot.Bound, reconciles.keepsBinding]
          exact bound
  | stopped stops =>
      obtain ⟨agrees, bound⟩ := before _ rfl
      refine ⟨stops.agrees agrees bound, ?_⟩
      rw [Slot.Bound, stops.keepsBinding]
      exact bound
  | restarted restarts =>
      obtain ⟨agrees, bound⟩ := before _ rfl
      exact restarts.agrees agrees bound
  | reconciled reconciles =>
      obtain ⟨_, bound⟩ := before _ rfl
      refine ⟨reconciles.agrees, ?_⟩
      rw [Slot.Bound, reconciles.keepsBinding]
      exact bound

end Sections

/-- Each endpoint row says what its deployment says, and only endpoints of READY
deployments are handed off. -/
structure Database.EndpointsAgree (database : Database) : Prop where
  rows : ∀ endpoint ∈ database.endpoints.rows, ∃ deployment,
    database.getDeployment endpoint.deploymentId = some deployment ∧
      (endpoint.state = .ready ↔ deployment.observedState = .ready) ∧
      (endpoint.state = .retired ↔ deployment.observedState = .stopped) ∧
      (deployment.observedState = .failed → endpoint.state ≠ .provisioning)
  handedOff : ∀ handoff endpointId command payload,
    Exchange.prepareSend handoff database endpointId command = .ok payload →
      ∃ endpoint deployment, database.getEndpoint endpointId = some endpoint ∧
        database.getDeployment endpoint.deploymentId = some deployment ∧
        deployment.observedState = .ready

/-- Between the commands of a steady run the endpoint rows agree with the deployments. -/
theorem endpoints_agree (service : ReactorService) {pool : Pool (service.system (Steady service))}
    (reached : Reached (Steady service) service pool) (quiescent : pool.Quiescent) :
    (State.database pool.state).EndpointsAgree := by
  have rows : ∀ endpoint ∈ (State.database pool.state).endpoints.rows, ∃ deployment,
      (State.database pool.state).getDeployment endpoint.deploymentId = some deployment ∧
        (endpoint.state = .ready ↔ deployment.observedState = .ready) ∧
        (endpoint.state = .retired ↔ deployment.observedState = .stopped) ∧
        (deployment.observedState = .failed → endpoint.state ≠ .provisioning) := by
    intro endpoint stored
    obtain ⟨slot, here, present⟩ := reached.consistent.linked.slot_of_endpoint stored
    obtain ⟨agrees, _⟩ := reached.kept kept_agreement quiescent here
    exact ⟨slot.deployment, (Database.slot_eq_some here).1, agrees.ready endpoint present,
      agrees.retired endpoint present, agrees.failed endpoint present⟩
  refine ⟨rows, fun handoff endpointId command payload sends => ?_⟩
  obtain ⟨endpoint, found, ready⟩ := Exchange.prepareSend_ready handoff sends
  obtain ⟨deployment, stored, agrees, _⟩ := rows endpoint (Database.getEndpoint_mem found).1
  exact ⟨endpoint, deployment, found, stored, agrees.mp ready⟩

/-- The calls whose sample answer is steady whatever is stored. -/
def Sample.steadyCall : Op → Bool
  | .port engine (.verifyServedModel _ _ _ servedModel) =>
      engine == Sample.engine && servedModel != some ""
  | .port engine _ => engine == Sample.engine
  | .utcNow | .uuid4 | .store _ | .activity _ => true

theorem Sample.replies_steady {database : Database} {state : State} {op : Op}
    (steady : Sample.steadyCall op = true) :
    Steady Sample.service database op (Sample.replies.engines.reply state op) := by
  cases op with
  | port engine call =>
      intro slot _
      cases call with
      | verifyServedModel id executionRef endpointUrl servedModel =>
          simp only [steadyCall, Bool.and_eq_true, bne_iff_ne] at steady
          exact fun unnamed => absurd unnamed steady.2
      | prepare id =>
          obtain rfl := beq_iff_eq.mp steady
          exact fun unstartable => by cases unstartable.2
      | start =>
          refine ⟨fun _ refused => ?_, fun _ refused => by cases refused⟩
          rcases refused with refused | ⟨unnamed, _⟩
          · cases refused
          · exact absurd (Option.some.inj unnamed) (by decide)
      | inspect | stop => trivial
  | store op =>
      cases op with
      | saveDeployment deployment =>
          intro _ _ _ _ _ engine bound
          cases bound
          rfl
      | createIntent | savePair | getDeployment | getEndpoint | getExecutionRef
      | resolveIdempotency | appendDeploymentEvent | appendDeploymentDiagnostics => trivial
  | utcNow | uuid4 | activity => trivial

theorem EngineScript.answer_eq {engines : EngineScript} {caller : Caller Command} {held : Bool}
    {op : Op} {state next : State} {reply : op.Answer}
    (answered : engines.answer caller held op state = some (reply, next)) :
    reply = engines.reply state op := by
  cases op with
  | uuid4 =>
      by_cases drawn : engines.reply state .uuid4 ∈ issued state.journal
      · have refused : engines.answer caller held .uuid4 state = none := if_pos drawn
        rw [refused] at answered
        cases answered
      · have given : engines.answer caller held .uuid4 state = some _ := if_neg drawn
        rw [given] at answered
        cases answered
        rfl
  | utcNow | store | port | activity =>
      cases answered
      rfl

/-- The sample answers, as far as they are steady. -/
def Sample.steadyScript : Script (Sample.service.system (Steady Sample.service)) where
  answer caller held op state :=
    match Sample.steadyCall op with
    | true => Sample.replies.engines.answer caller held op state
    | false => none
  sound := by
    intro caller held op state reply next answered
    cases steady : Sample.steadyCall op with
    | false =>
        rw [steady] at answered
        cases answered
    | true =>
        rw [steady] at answered
        have performs : Performs .unrestricted caller held op state reply next :=
          (Sample.replies.engines.script Sample.service .unrestricted fun _ _ => trivial).sound
            answered
        have given : reply = Sample.replies.engines.reply state op :=
          EngineScript.answer_eq answered
        exact ⟨given ▸ Sample.replies_steady steady, performs.answers, performs.next_eq⟩

/-- A create, run to its end with steady answers. -/
def Sample.steadyCaller : Caller Command := ⟨0, .create Sample.request none⟩

def Sample.steadyStart : Configuration (Sample.service.system (Steady Sample.service))
    (Except Raised Deployment) :=
  ⟨0, (Sample.service.body Sample.steadyCaller.command).attempt, State.initial⟩

def Sample.steadyEnd : Configuration (Sample.service.system (Steady Sample.service))
    (Except Raised Deployment) :=
  Sample.steadyScript.advance Sample.steadyCaller 40 Sample.steadyStart

def Sample.steadied : Pool (Sample.service.system (Steady Sample.service)) :=
  ⟨Sample.steadyEnd.state,
    [⟨Sample.steadyCaller.command, Sample.steadyEnd.depth, Sample.steadyEnd.program⟩]⟩

theorem Sample.steadied_reached : Reached (Steady Sample.service) Sample.service Sample.steadied := by
  have ran : Runs Sample.steadyCaller Sample.steadyStart.depth Sample.steadyStart.program
      Sample.steadyStart.state Sample.steadyEnd.depth Sample.steadyEnd.program
      Sample.steadyEnd.state := Sample.steadyScript.advance_runs 40 Sample.steadyStart
  have quiescent : (@Pool.initial (Sample.service.system (Steady Sample.service))
      State.initial).Quiescent := Pool.initial_quiescent _
  exact quiescent.serves ran

theorem endpoints_agree_steadied :
    (State.database Sample.steadied.state).EndpointsAgree ∧
      (State.database Sample.steadied.state).endpoints.rows.length = 1 :=
  ⟨endpoints_agree Sample.service Sample.steadied_reached (by decide), rfl⟩

/-- A launch that gives up without evidence leaves a PROVISIONING endpoint behind. -/
def Sample.abandoned : Pool (Sample.service.system .unrestricted) :=
  rehearse { Sample.replies with
    prepare := .ok (some Sample.handle)
    start := .error (.serving { detail := "out of memory" }) : Replies }.engines
    (fun _ _ => trivial) 40 (.create Sample.request none) (Pool.initial State.initial)

theorem endpoint_left_behind :
    ∃ pool : Pool (Sample.service.system .unrestricted),
      Reached .unrestricted Sample.service pool ∧ pool.Quiescent ∧
        ∃ endpoint ∈ (State.database pool.state).endpoints.rows, ∃ deployment,
          (State.database pool.state).getDeployment endpoint.deploymentId = some deployment ∧
            deployment.observedState = .failed ∧ endpoint.state = .provisioning :=
  ⟨Sample.abandoned, rehearse_reaches (Pool.initial_quiescent _), by decide, _,
    List.mem_singleton_self _, _, rfl, rfl, rfl⟩

end CyreneReactor
