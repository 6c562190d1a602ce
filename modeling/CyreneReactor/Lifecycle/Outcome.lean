import CyreneReactor.Lifecycle.Inside

namespace CyreneReactor

open ReactorService

/-! What a launch can come to, told by the answers of the engine alone.  Each
relation below says which calls a part of `_launch` makes, which answers it
gets, and what it leaves; the calls are listed in the order they are made.
-/

/-- The execution a failure names, together with an address. -/
def ServingEngineFailure.execution (failure : ServingEngineFailure) : Option String :=
  failure.endpointUrl.bind fun _ => failure.executionRef

/-- What is saved of the failure can be encoded. -/
def ServingEngineFailure.storable (failure : ServingEngineFailure) : Bool :=
  failure.detailEncodes && (failure.referencesEncode || failure.execution.isNone)

/-- An endpoint can be saved for the handle. -/
def EngineHandle.storable (handle : EngineHandle) : Bool :=
  handle.encodes && handle.model != some ""

theorem execution_of_unnamed {failure : ServingEngineFailure}
    (unnamed : failure.executionRef = none ∨ failure.endpointUrl = none) :
    failure.execution = none := by
  rcases unnamed with missing | missing
  · cases address : failure.endpointUrl <;>
      simp [ServingEngineFailure.execution, missing, address]
  · simp [ServingEngineFailure.execution, missing]

theorem storable_of_unnamed {failure : ServingEngineFailure}
    (unnamed : failure.executionRef = none ∨ failure.endpointUrl = none) :
    failure.storable = failure.detailEncodes := by
  simp [ServingEngineFailure.storable, execution_of_unnamed unnamed]

theorem storable_of_encodes {failure : ServingEngineFailure}
    (encodes : (failure.detailEncodes && failure.referencesEncode) = true) :
    failure.storable = true := by
  rw [Bool.and_eq_true] at encodes
  simp [ServingEngineFailure.storable, encodes]

theorem storable_of_named {handle : EngineHandle} {endpoint : Endpoint}
    (named : endpoint.model = handle.model) (encodes : handle.encodes = true) :
    handle.storable = true := by
  have nonempty : handle.model ≠ some "" := named ▸ endpoint.named
  simp [EngineHandle.storable, encodes, nonempty]

theorem unsaved_cases {handle : EngineHandle} (unsaved : handle.storable = false) :
    handle.encodes = false ∨ handle.model = some "" := by
  rw [EngineHandle.storable, Bool.and_eq_false_iff] at unsaved
  exact unsaved.imp_right fun unnamed => by simpa using unnamed

/-- A mismatch is saved with the references of its handle and the text of its clean-up. -/
theorem mismatch_storable {version : ModelVersionDocument} {handle : EngineHandle}
    {cleanup : Except ServingEngineFailure Unit} :
    (identityMismatch version handle cleanup).storable = true ↔
      handle.referencesEncode = true ∧
        ∀ failure, cleanup = .error failure → failure.detailEncodes = true := by
  cases cleanup with
  | ok value =>
      change (true && (handle.referencesEncode || false)) = true ↔ _
      simp
  | error failure =>
      change (failure.detailEncodes && (handle.referencesEncode || false)) = true ↔ _
      simp [and_comm]

theorem compensated_storable {failure cleanup : ServingEngineFailure} :
    (compensated failure (some cleanup)).storable = true ↔
      failure.storable = true ∧ cleanup.detailEncodes = true := by
  change ((failure.detailEncodes && cleanup.detailEncodes) &&
    (failure.referencesEncode || failure.execution.isNone)) = true ↔ _
  simp only [ServingEngineFailure.storable, Bool.and_eq_true]
  exact and_right_comm

section

variable (environment : Environment) (service : ReactorService)

/-- Preparation, up to the first statement of the `try` block.  When it raises,
nothing is written. -/
inductive Prepares (slot : Slot) : List Exchange → Slot → Except Raised Unit → Prop where
  | unbound {raised : Raised}
      (unbound : service.engineFor slot.deployment.servingBindingId = .error raised) :
      Prepares slot [] slot (.error raised)
  | refused {engine : Engine} {raised : Raised}
      (bound : service.engineFor slot.deployment.servingBindingId = .ok engine)
      (admits : environment.Admits slot ⟨engine, .prepare slot.deployment.id, .error raised⟩) :
      Prepares slot [⟨engine, .prepare slot.deployment.id, .error raised⟩] slot (.error raised)
  | nothing {engine : Engine}
      (bound : service.engineFor slot.deployment.servingBindingId = .ok engine)
      (admits : environment.Admits slot
        ⟨engine, .prepare slot.deployment.id, .ok (none : Option EngineHandle)⟩) :
      Prepares slot [⟨engine, .prepare slot.deployment.id, .ok (none : Option EngineHandle)⟩]
        slot (.ok ())
  | unsaved {engine : Engine} {handle : EngineHandle}
      (bound : service.engineFor slot.deployment.servingBindingId = .ok engine)
      (admits : environment.Admits slot ⟨engine, .prepare slot.deployment.id, .ok (some handle)⟩)
      (unsaved : handle.storable = false) :
      Prepares slot [⟨engine, .prepare slot.deployment.id, .ok (some handle)⟩] slot
        (.error (.other .valueError))
  | pending {engine : Engine} {handle : EngineHandle} {endpoint : Endpoint}
      (bound : service.engineFor slot.deployment.servingBindingId = .ok engine)
      (admits : environment.Admits slot ⟨engine, .prepare slot.deployment.id, .ok (some handle)⟩)
      (follows : endpoint.Follows slot) (provisioning : endpoint.state = .provisioning)
      (url : endpoint.url = handle.endpointUrl) (named : endpoint.model = handle.model)
      (encodes : handle.encodes = true) :
      Prepares slot [⟨engine, .prepare slot.deployment.id, .ok (some handle)⟩]
        ⟨{ slot.deployment with endpointId := some endpoint.id }, some endpoint,
          some handle.executionRef⟩ (.ok ())

namespace Prepares

variable {environment service} {slot new : Slot} {calls : List Exchange}

theorem unchanged {raised : Raised}
    (prepares : Prepares environment service slot calls new (.error raised)) : new = slot := by
  cases prepares <;> rfl

/-- Preparation changes nothing a start depends on. -/
theorem kept {outcome : Except Raised Unit}
    (prepares : Prepares environment service slot calls new outcome) :
    new.deployment.observedState = slot.deployment.observedState ∧
      new.deployment.servingBindingId = slot.deployment.servingBindingId ∧
      servingArtifact new.deployment = servingArtifact slot.deployment ∧
      runtimeModelVersion new.deployment = runtimeModelVersion slot.deployment := by
  cases prepares <;> exact ⟨rfl, rfl, rfl, rfl⟩

theorem bound (prepares : Prepares environment service slot calls new (.ok ())) :
    ∃ engine, service.engineFor slot.deployment.servingBindingId = .ok engine := by
  cases prepares with
  | nothing bound _ | pending bound _ _ _ _ _ => exact ⟨_, bound⟩

theorem unstarted {outcome : Except Raised Unit}
    (prepares : Prepares environment service slot calls new outcome) :
    ∀ exchange ∈ calls, exchange.starts = false := by
  cases prepares <;> simp [Exchange.starts]

end Prepares

/-- One attempt to release an execution that was just started. -/
inductive Cleans (slot : Slot) (engine : Engine) (handle : EngineHandle) (identity : String)
    (version : Option ModelVersionDocument) : List Exchange → Except Raised Unit → Prop where
  | unsupported (composed : version.isSome = true)
      (refused : engine.takesModelVersion .stop = false) :
      Cleans slot engine handle identity version [] (requireModelVersionKeyword engine .stop)
  | untyped (full : version = none) (refused : engine.takesModelVersion .stop = false) :
      Cleans slot engine handle identity version [] (.error (.other .typeError))
  | called {answer : Except Raised EngineObservation}
      (takes : engine.takesModelVersion .stop = true)
      (admits : environment.Admits slot ⟨engine, .stop handle.executionRef handle.endpointUrl
        slot.deployment.id identity version, answer⟩) :
      Cleans slot engine handle identity version
        [⟨engine, .stop handle.executionRef handle.endpointUrl slot.deployment.id identity version,
          answer⟩]
        (answer.map fun _ => ())

/-- The readback of a started model, when the engine offers one. -/
inductive Verifies (slot : Slot) (engine : Engine) (handle : EngineHandle) :
    List Exchange → Except Raised Unit → Prop where
  | absent (absent : engine.verifiesServedModel = false) :
      Verifies slot engine handle [] (.ok ())
  | called {answer : Except Raised Unit} (offered : engine.verifiesServedModel = true)
      (admits : environment.Admits slot ⟨engine, .verifyServedModel slot.deployment.id
        handle.executionRef handle.endpointUrl handle.model, answer⟩) :
      Verifies slot engine handle
        [⟨engine, .verifyServedModel slot.deployment.id handle.executionRef handle.endpointUrl
          handle.model, answer⟩]
        answer

end

/-- What `_launch` has decided when its `try` statement is over. -/
inductive Verdict where
  | aborted (raised : Raised)
  | failed (failure : ServingEngineFailure)
  | verified (handle : EngineHandle)

namespace Verdict

def ofRaised : Raised → Verdict
  | .serving failure => failed failure
  | raised => aborted raised

/-- After an identity mismatch and its clean-up. -/
def mismatched (version : ModelVersionDocument) (handle : EngineHandle) :
    Except Raised Unit → Verdict
  | .ok _ => failed (identityMismatch version handle (.ok ()))
  | .error (.serving failure) => failed (identityMismatch version handle (.error failure))
  | .error raised => aborted raised

/-- After a failed readback and its clean-up. -/
def unverified (failure : ServingEngineFailure) : Except Raised Unit → Verdict
  | .ok _ => failed failure
  | .error (.serving cleanup) => failed (compensated failure (some cleanup))
  | .error raised => aborted raised

end Verdict

/-- The identity a clean-up sends: the version of a composed model, or the digest. -/
def cleanupIdentity (version : Option ModelVersionDocument) (model : ArtifactRef) : String :=
  (version.map ModelVersionDocument.id).getD model.digest

/-- The call of `start` for a stored deployment. -/
def startCall (deployment : Deployment) (model : ArtifactRef)
    (version : Option ModelVersionDocument) : PortCall :=
  .start deployment.id model deployment.nodeRef version

/-- The handle identifies itself as the version that was asked for, if one was. -/
def Identified (version : Option ModelVersionDocument) (handle : EngineHandle) : Prop :=
  ∀ document, version = some document → handle.modelVersionId = some document.id

/-- The `try` statement of `_launch` with the clean-up of its handler.  `version`
is the runtime version of the deployment. -/
inductive Attempts (environment : Environment) (slot : Slot) (engine : Engine)
    (model : ArtifactRef) (version : Option ModelVersionDocument) :
    List Exchange → Verdict → Prop where
  | unsupported {failure : ServingEngineFailure} (composed : version.isSome = true)
      (refused : requireModelVersionKeyword engine .start = .error (.serving failure)) :
      Attempts environment slot engine model version [] (.failed failure)
  | refused {raised : Raised}
      (admits : environment.Admits slot
        ⟨engine, startCall slot.deployment model version, .error raised⟩) :
      Attempts environment slot engine model version
        [⟨engine, startCall slot.deployment model version, .error raised⟩] (.ofRaised raised)
  | mismatched {document : ModelVersionDocument} {handle : EngineHandle}
      {cleanup : List Exchange} {outcome : Except Raised Unit}
      (admits : environment.Admits slot ⟨engine, startCall slot.deployment model version, .ok handle⟩)
      (composed : version = some document)
      (other : handle.modelVersionId ≠ some document.id)
      (cleans : Cleans environment slot engine handle document.id version cleanup outcome) :
      Attempts environment slot engine model version
        (⟨engine, startCall slot.deployment model version, .ok handle⟩ :: cleanup)
        (.mismatched document handle outcome)
  | interrupted {handle : EngineHandle} {readback : List Exchange} {raised : Raised}
      (admits : environment.Admits slot ⟨engine, startCall slot.deployment model version, .ok handle⟩)
      (identified : Identified version handle)
      (verifies : Verifies environment slot engine handle readback (.error raised))
      (uncaught : ∀ failure, raised ≠ .serving failure) :
      Attempts environment slot engine model version
        (⟨engine, startCall slot.deployment model version, .ok handle⟩ :: readback) (.aborted raised)
  | unverified {handle : EngineHandle} {readback cleanup : List Exchange}
      {failure : ServingEngineFailure} {outcome : Except Raised Unit}
      (admits : environment.Admits slot ⟨engine, startCall slot.deployment model version, .ok handle⟩)
      (identified : Identified version handle)
      (verifies : Verifies environment slot engine handle readback (.error (.serving failure)))
      (cleans : Cleans environment slot engine handle (cleanupIdentity version model) version
        cleanup outcome) :
      Attempts environment slot engine model version
        (⟨engine, startCall slot.deployment model version, .ok handle⟩ :: (readback ++ cleanup))
        (.unverified failure outcome)
  | verified {handle : EngineHandle} {readback : List Exchange}
      (admits : environment.Admits slot ⟨engine, startCall slot.deployment model version, .ok handle⟩)
      (identified : Identified version handle)
      (verifies : Verifies environment slot engine handle readback (.ok ())) :
      Attempts environment slot engine model version
        (⟨engine, startCall slot.deployment model version, .ok handle⟩ :: readback) (.verified handle)

/-- The end of `_launch`: what a verdict makes of the slot and of the command. -/
inductive Settles (slot : Slot) : Verdict → Slot → Except Raised Deployment → Prop where
  | aborted {raised : Raised} : Settles slot (.aborted raised) slot (.error raised)
  | failed {failure : ServingEngineFailure} {now : Datetime}
      (unnamed : failure.executionRef = none ∨ failure.endpointUrl = none)
      (encodes : failure.detailEncodes = true) :
      Settles slot (.failed failure)
        { slot with deployment := failedDeployment slot.deployment failure now }
        (.error (.product (startFailedError slot.deployment failure)))
  | failedWithEvidence {failure : ServingEngineFailure} {executionRef endpointUrl : String}
      {endpoint : Endpoint} {now : Datetime}
      (execution : failure.executionRef = some executionRef)
      (address : failure.endpointUrl = some endpointUrl)
      (follows : endpoint.Follows slot) (unhealthy : endpoint.state = .unhealthy)
      (url : endpoint.url = endpointUrl)
      (encodes : (failure.detailEncodes && failure.referencesEncode) = true) :
      Settles slot (.failed failure)
        ⟨{ failedDeployment slot.deployment failure now with endpointId := some endpoint.id },
          some endpoint, some executionRef⟩
        (.error (.product (startFailedError slot.deployment failure)))
  | unfailed {failure : ServingEngineFailure} (unsaved : failure.storable = false) :
      Settles slot (.failed failure) slot (.error (.other .valueError))
  | unready {handle : EngineHandle} (unsaved : handle.storable = false) :
      Settles slot (.verified handle) slot (.error (.other .valueError))
  | ready {handle : EngineHandle} {endpoint : Endpoint} {now : Datetime}
      (follows : endpoint.Follows slot) (ready : endpoint.state = .ready)
      (url : endpoint.url = handle.endpointUrl) (named : endpoint.model = handle.model)
      (encodes : handle.encodes = true) :
      Settles slot (.verified handle)
        ⟨readyDeployment slot.deployment endpoint.id now, some endpoint,
          some handle.executionRef⟩
        (.ok (readyDeployment slot.deployment endpoint.id now))

/-- A whole launch of the deployment stored as `slot`. -/
inductive Launches (environment : Environment) (service : ReactorService) (slot : Slot) :
    List Exchange → Slot → Except Raised Deployment → Prop where
  | unprepared {new : Slot} {calls : List Exchange} {raised : Raised}
      (prepares : Prepares environment service slot calls new (.error raised)) :
      Launches environment service slot calls new (.error raised)
  | launched {prepared new : Slot} {calls attempt : List Exchange} {engine : Engine}
      {model : ArtifactRef} {verdict : Verdict} {result : Except Raised Deployment}
      (prepares : Prepares environment service slot calls prepared (.ok ()))
      (bound : service.engineFor slot.deployment.servingBindingId = .ok engine)
      (placed : servingArtifact slot.deployment = .ok model)
      (attempts : Attempts environment prepared engine model
        (runtimeModelVersion slot.deployment) attempt verdict)
      (settles : Settles prepared verdict new result) :
      Launches environment service slot (calls ++ attempt) new result

/-- What a stop raises when the engine does not release the execution. -/
def stopOutcome (deployment : Deployment) {α : Type} : Except Raised α → Except Raised Unit
  | .ok _ => .ok ()
  | .error (.serving failure) => .error (.product (stopFailedError deployment failure))
  | .error raised => .error raised

/-- The call of `stop` for a stored deployment. -/
def stopCall (deployment : Deployment) (executionRef endpointUrl identity : String) : PortCall :=
  .stop executionRef endpointUrl deployment.id identity (runtimeModelVersion deployment)

/-- A stop's release of the execution recorded in `slot`. -/
inductive Releases (environment : Environment) (service : ReactorService) (slot : Slot) :
    List Exchange → Except Raised Unit → Prop where
  | nothing (nothing : slot.executionRef = none ∨ slot.endpoint = none) :
      Releases environment service slot [] (.ok ())
  | unbound {executionRef : String} {endpoint : Endpoint} {raised : Raised}
      (evidence : slot.executionRef = some executionRef) (address : slot.endpoint = some endpoint)
      (unbound : service.engineFor slot.deployment.servingBindingId = .error raised) :
      Releases environment service slot [] (.error raised)
  | unsupported {executionRef : String} {endpoint : Endpoint} {engine : Engine}
      {failure : ServingEngineFailure}
      (evidence : slot.executionRef = some executionRef) (address : slot.endpoint = some endpoint)
      (bound : service.engineFor slot.deployment.servingBindingId = .ok engine)
      (composed : (runtimeModelVersion slot.deployment).isSome = true)
      (refused : requireModelVersionKeyword engine .stop = .error (.serving failure)) :
      Releases environment service slot []
        (.error (.product (stopFailedError slot.deployment failure)))
  | called {executionRef identity : String} {endpoint : Endpoint} {engine : Engine}
      {answer : Except Raised EngineObservation}
      (evidence : slot.executionRef = some executionRef) (address : slot.endpoint = some endpoint)
      (bound : service.engineFor slot.deployment.servingBindingId = .ok engine)
      (names : servingIdentity slot.deployment = .ok identity)
      (takes : (runtimeModelVersion slot.deployment).isSome = true →
        engine.takesModelVersion .stop = true)
      (admits : environment.Admits slot
        ⟨engine, stopCall slot.deployment executionRef endpoint.url identity, answer⟩) :
      Releases environment service slot
        [⟨engine, stopCall slot.deployment executionRef endpoint.url identity, answer⟩]
        (stopOutcome slot.deployment answer)

/-- A release that returned has stopped the recorded execution. -/
theorem Releases.returned {environment : Environment} {service : ReactorService} {slot : Slot}
    {calls : List Exchange} (releases : Releases environment service slot calls (.ok ()))
    {ref : String} (evidence : slot.executionRef = some ref)
    (addressed : slot.endpoint.isSome = true) :
    ∃ exchange ∈ calls, exchange.stopReturned slot.deployment.id ref = true := by
  generalize outcome : (Except.ok () : Except Raised Unit) = result at releases
  cases releases with
  | nothing nothing =>
      rcases nothing with none | none
      · rw [none] at evidence
        cases evidence
      · rw [none] at addressed
        cases addressed
  | unbound | unsupported => cases outcome
  | @called executionRef identity endpoint engine answer recorded _ _ _ _ _ =>
      rw [recorded, Option.some.injEq] at evidence
      subst evidence
      refine ⟨_, List.mem_singleton_self _, ?_⟩
      match answer, outcome with
      | .ok _, _ => simp [Exchange.stopReturned, stopCall]

/-- A release of a recorded execution calls the engine that is bound to it. -/
theorem Releases.callsEngine {environment : Environment} {service : ReactorService} {slot : Slot}
    {calls : List Exchange} {outcome : Except Raised Unit}
    (releases : Releases environment service slot calls outcome) {ref : String}
    {endpoint : Endpoint} {engine : Engine} (evidence : slot.executionRef = some ref)
    (address : slot.endpoint = some endpoint)
    (bound : service.engineFor slot.deployment.servingBindingId = .ok engine)
    (takes : (runtimeModelVersion slot.deployment).isSome = true →
      engine.takesModelVersion .stop = true) :
    ∃ identity answer,
      calls = [⟨engine, stopCall slot.deployment ref endpoint.url identity, answer⟩] := by
  cases releases with
  | nothing nothing =>
      rcases nothing with none | none
      · rw [none] at evidence
        cases evidence
      · rw [none] at address
        cases address
  | unbound _ _ unbound =>
      rw [bound] at unbound
      cases unbound
  | unsupported _ _ bound' composed refused =>
      rw [bound, Except.ok.injEq] at bound'
      subst bound'
      rw [requireModelVersionKeyword, if_pos (takes composed)] at refused
      cases refused
  | called evidence' address' bound' _ _ _ =>
      rw [evidence, Option.some.injEq] at evidence'
      rw [address, Option.some.injEq] at address'
      rw [bound, Except.ok.injEq] at bound'
      subst evidence' address' bound'
      exact ⟨_, _, rfl⟩

theorem Releases.unstarted {environment : Environment} {service : ReactorService} {slot : Slot}
    {calls : List Exchange} {outcome : Except Raised Unit}
    (releases : Releases environment service slot calls outcome) :
    ∀ exchange ∈ calls, exchange.starts = false := by
  cases releases <;> simp [Exchange.starts, stopCall]

/-- The slot while a stop calls the engine. -/
def Slot.stopping (slot : Slot) (now : Datetime) : Slot :=
  { slot with deployment := stoppingDeployment slot.deployment now }

/-- The slot a stop leaves when the execution is released. -/
def Slot.stopped (slot : Slot) (stoppedAt : Datetime) : Slot :=
  ⟨stoppedDeployment slot.deployment stoppedAt,
    slot.endpoint.map fun endpoint => retiredEndpoint endpoint stoppedAt, slot.executionRef⟩

/-- A whole stop of the deployment stored as `slot`. -/
inductive Stops (environment : Environment) (service : ReactorService) (slot : Slot) :
    List Exchange → Slot → Except Raised Deployment → Prop where
  | already (stopped : slot.deployment.observedState = .stopped) :
      Stops environment service slot [] slot (.ok slot.deployment)
  | kept {calls : List Exchange} {now : Datetime} {raised : Raised}
      (running : slot.deployment.observedState ≠ .stopped)
      (begins : environment.AdmitsSave slot (stoppingDeployment slot.deployment now))
      (releases : Releases environment service (slot.stopping now) calls (.error raised)) :
      Stops environment service slot calls (slot.stopping now) (.error raised)
  | released {calls : List Exchange} {now stoppedAt : Datetime}
      (running : slot.deployment.observedState ≠ .stopped)
      (begins : environment.AdmitsSave slot (stoppingDeployment slot.deployment now))
      (releases : Releases environment service (slot.stopping now) calls (.ok ())) :
      Stops environment service slot calls ((slot.stopping now).stopped stoppedAt)
        (.ok (stoppedDeployment (stoppingDeployment slot.deployment now) stoppedAt))

namespace Stops

variable {environment : Environment} {service : ReactorService} {slot new : Slot}
variable {calls : List Exchange}

/-- A stop that returns leaves the deployment it returns, STOPPED. -/
theorem ended {deployment : Deployment}
    (stops : Stops environment service slot calls new (.ok deployment)) :
    deployment = new.deployment ∧ new.deployment.observedState = .stopped := by
  cases stops with
  | already stopped => exact ⟨rfl, stopped⟩
  | released => exact ⟨rfl, rfl⟩

/-- A stop that finds an execution recorded calls the engine for it. -/
theorem callsEngine {result : Except Raised Deployment}
    (stops : Stops environment service slot calls new result) {ref : String}
    {endpoint : Endpoint} {engine : Engine} (running : slot.deployment.observedState ≠ .stopped)
    (evidence : slot.executionRef = some ref) (address : slot.endpoint = some endpoint)
    (bound : service.engineFor slot.deployment.servingBindingId = .ok engine)
    (takes : (runtimeModelVersion slot.deployment).isSome = true →
      engine.takesModelVersion .stop = true) :
    ∃ identity answer,
      calls = [⟨engine, stopCall slot.deployment ref endpoint.url identity, answer⟩] := by
  cases stops with
  | already stopped => exact absurd stopped running
  | kept _ _ releases | released _ _ releases =>
      exact releases.callsEngine evidence address bound takes

theorem unstarted {result : Except Raised Deployment}
    (stops : Stops environment service slot calls new result) :
    ∀ exchange ∈ calls, exchange.starts = false := by
  cases stops with
  | already => exact fun _ member => absurd member List.not_mem_nil
  | kept _ _ releases | released _ _ releases => exact releases.unstarted

end Stops

/-- The slot a restart saves before it launches. -/
def Slot.starting (slot : Slot) (nodeRef : NodeRef) (now : Datetime) : Slot :=
  { slot with deployment := startingDeployment slot.deployment nodeRef now }

/-- A whole restart of the deployment stored as `slot`. -/
inductive Restarts (environment : Environment) (service : ReactorService) (nodeRef : NodeRef)
    (version : Nat) (slot : Slot) : List Exchange → Slot → Except Raised Deployment → Prop where
  | conflict (stale : slot.deployment.resourceVersion ≠ version) :
      Restarts environment service nodeRef version slot [] slot
        (.error (.product versionConflict))
  | kept {calls : List Exchange} {new : Slot} {raised : Raised}
      (current : slot.deployment.resourceVersion = version)
      (stops : Stops environment service slot calls new (.error raised)) :
      Restarts environment service nodeRef version slot calls new (.error raised)
  | relaunched {release calls : List Exchange} {stopped new : Slot} {now : Datetime}
      {result : Except Raised Deployment}
      (current : slot.deployment.resourceVersion = version)
      (stops : Stops environment service slot release stopped (.ok stopped.deployment))
      (launches : Launches environment service (stopped.starting nodeRef now) calls new result) :
      Restarts environment service nodeRef version slot (release ++ calls) new result

/-- A read of the deployment stored as `slot`, with the write of its reconcile. -/
inductive Reads (slot : Slot) : List Exchange → Slot → Except Raised Deployment → Prop where
  | unchanged {calls : List Exchange} {result : Except Raised Deployment}
      (observes : ∀ exchange ∈ calls, exchange.inspects = true)
      (current : ∀ deployment, result = .ok deployment → deployment = slot.deployment) :
      Reads slot calls slot result
  | reconciled {calls : List Exchange} {new : Slot}
      (observes : ∀ exchange ∈ calls, exchange.inspects = true) (reconciles : Reconciles slot new) :
      Reads slot calls new (.ok new.deployment)

/-- A whole create that began in `origin`. -/
inductive Creates (environment : Environment) (service : ReactorService)
    (request : CreateDeploymentRequest) (key : Option String) (origin : State) :
    Except Raised Deployment → State → Prop where
  | conflicting {raised : Raised}
      (conflict : origin.database.resolveIdempotency key (service.requestHash request) =
        .error raised) :
      Creates environment service request key origin (.error raised) origin
  | missing {id : Uuid} {raised : Raised}
      (known : origin.database.resolveIdempotency key (service.requestHash request) =
        .ok (some id))
      (absent : origin.database.slot id = none) :
      Creates environment service request key origin (.error raised) origin
  | unbound {raised : Raised} {state : State}
      (unknown : origin.database.resolveIdempotency key (service.requestHash request) = .ok none)
      (unbound : service.engineFor request.servingBindingId = .error raised)
      (idle : Idle origin state) :
      Creates environment service request key origin (.error raised) state
  | replayed {id : Uuid} {slot new : Slot} {calls recent : List Exchange}
      {result : Except Raised Deployment} {state : State}
      (known : origin.database.resolveIdempotency key (service.requestHash request) =
        .ok (some id))
      (here : origin.database.slot id = some slot) (reads : Reads slot calls new result)
      (inside : Inside origin id new calls recent state) :
      Creates environment service request key origin result state
  | launched {id : Uuid} {now : Datetime} {new : Slot} {calls recent : List Exchange}
      {result : Except Raised Deployment} {state : State}
      (unknown : origin.database.resolveIdempotency key (service.requestHash request) = .ok none)
      (absent : origin.database.slot id = none)
      (bound : ∃ engine, service.engineFor request.servingBindingId = .ok engine)
      (launches : Launches environment service ⟨newDeployment request id now, none, none⟩ calls
        new result)
      (inside : Inside origin id new calls recent state) :
      Creates environment service request key origin result state

end CyreneReactor
