import CyreneReactor.Service.Launch

namespace CyreneReactor

open Interaction

/-! The commands of `ReactorService` and the system they form. -/

namespace ReactorService

variable (service : ReactorService)

def observedOf (observation : EngineObservation) : ObservedState :=
  if observation.ready then .ready else .degraded

def endpointStateOf (observation : EngineObservation) : EndpointState :=
  if observation.ready then .ready else .unhealthy

/-- The deployment as `get_deployment` rewrites it from an observation. -/
def reconciledDeployment (deployment : Deployment) (observation : EngineObservation)
    (now : Datetime) : Deployment :=
  { deployment with
    observedState := observedOf observation
    failure :=
      if observation.ready then none
      else some
        { code := "REACTOR_EXECUTION_UNAVAILABLE"
          message := observation.detail
          retryable := true }
    updatedAt := now
    resourceVersion := deployment.resourceVersion + 1 }

def reconciledEndpoint (endpoint : Endpoint) (observation : EngineObservation)
    (now : Datetime) : Endpoint :=
  { endpoint with
    state := endpointStateOf observation
    updatedAt := now
    resourceVersion := endpoint.resourceVersion + 1 }

def inspectExecution (deployment : Deployment) (endpoint : Endpoint) (executionRef : String) :
    Service EngineObservation := do
  let model ← Fallible.ofExcept (servingArtifact deployment)
  let engine ← Fallible.ofExcept (service.engineFor deployment.servingBindingId)
  match runtimeModelVersion deployment with
  | none => port engine (.inspect executionRef endpoint.url deployment.id model.digest none)
  | some version => do
      Fallible.ofExcept (requireModelVersionKeyword engine .inspect)
      let identity ← Fallible.ofExcept (servingIdentity deployment)
      port engine (.inspect executionRef endpoint.url deployment.id identity (some version))

/-- The compare-and-save of `get_deployment`, under the command lock. -/
def compareAndSave (deployment : Deployment) (endpoint : Endpoint) (version : Nat) :
    Service Deployment := do
  let current ← requireDeployment deployment.id
  if current.resourceVersion ≠ version then pure current
  else do
    store (.savePair deployment endpoint none)
    pure deployment

/-- What `get_deployment` does with an observation. -/
def reconcile (deployment : Deployment) (endpoint : Endpoint)
    (observation : EngineObservation) : Service Deployment := do
  if observedOf observation ≠ deployment.observedState ∨
      endpointStateOf observation ≠ endpoint.state then do
    let now ← utcNow
    Fallible.locked (compareAndSave (reconciledDeployment deployment observation now)
      (reconciledEndpoint endpoint observation now) deployment.resourceVersion)
  else pure deployment

/-- `get_deployment` for a deployment that claims to serve. -/
def observeLive (deployment : Deployment) (endpointId : Uuid) : Service Deployment := do
  let endpoint ← requireEndpoint endpointId
  let executionRef ← store (.getExecutionRef deployment.id)
  match executionRef with
  | none => pure deployment
  | some executionRef => do
      let observation ← service.inspectExecution deployment endpoint executionRef
      reconcile deployment endpoint observation

/-- `get_deployment` -/
def getDeployment (deploymentId : Uuid) : Service Deployment := do
  let deployment ← requireDeployment deploymentId
  match deployment.observedState, deployment.endpointId with
  | .ready, some endpointId | .degraded, some endpointId =>
      service.observeLive deployment endpointId
  | _, _ => pure deployment

/-- `_create_deployment` builds this row before it persists the intent. -/
def newDeployment (request : CreateDeploymentRequest) (id : Uuid) (now : Datetime) :
    Deployment where
  id := id
  name := request.name
  modelArtifact := request.modelArtifact
  composition := request.composition
  modelVersion := request.modelVersion
  desiredState := .active
  observedState := .starting
  servingBindingId := request.servingBindingId
  nodeRef := request.nodeRef
  endpointId := none
  failure := none
  createdAt := now
  updatedAt := now
  resourceVersion := 1
  validated := request.validated

def persistIntent (deployment : Deployment) (key : Option String) (digest : String) :
    Service (Option Uuid) := do
  let outcome ← store (.createIntent deployment key digest)
  Fallible.ofExcept outcome

/-- `_create_deployment` once the intent is persisted, or another was found. -/
def afterIntent (deployment : Deployment) : Option Uuid → Service Deployment
  | some replay => do
      service.completeAfterPersist (taskId deployment.id) (pure ())
      service.getDeployment replay
  | none => do
      appendEvent deployment.id .queued "Deployment queued" none
      service.transitionAndPersist (taskId deployment.id) .dispatching
        (service.launch deployment)

def admitDeployment (deployment : Deployment) (idempotencyKey : Option String)
    (digest : String) : Service Deployment := do
  let _ ← Fallible.ofExcept (service.engineFor deployment.servingBindingId)
  let replay ← service.admitAndPersist (taskId deployment.id) .accepted
    (persistIntent deployment idempotencyKey digest)
  service.afterIntent deployment replay

/-- `_create_deployment` -/
def createLocked (request : CreateDeploymentRequest) (idempotencyKey : Option String) :
    Service Deployment := do
  let digest := service.requestHash request
  let resolved ← store (.resolveIdempotency idempotencyKey digest)
  let replay ← Fallible.ofExcept resolved
  match replay with
  | some deploymentId => service.getDeployment deploymentId
  | none => do
      let now ← utcNow
      let id ← uuid4
      service.admitDeployment (newDeployment request id now) idempotencyKey digest

def createDeployment (request : CreateDeploymentRequest) (idempotencyKey : Option String) :
    Service Deployment :=
  Fallible.locked (service.createLocked request idempotencyKey)

def stopExecution (deployment : Deployment) (endpoint : Endpoint) (executionRef : String) :
    Service Unit := do
  let model ← Fallible.ofExcept (servingArtifact deployment)
  let engine ← Fallible.ofExcept (service.engineFor deployment.servingBindingId)
  match runtimeModelVersion deployment with
  | none => do
      let _ ← port engine (.stop executionRef endpoint.url deployment.id model.digest none)
      pure ()
  | some version => do
      Fallible.ofExcept (requireModelVersionKeyword engine .stop)
      let identity ← Fallible.ofExcept (servingIdentity deployment)
      let _ ← port engine
        (.stop executionRef endpoint.url deployment.id identity (some version))
      pure ()

def stopFailedError (deployment : Deployment) (failure : ServingEngineFailure) :
    ReactorProductError where
  code := "REACTOR_SERVING_STOP_FAILED"
  title := "Serving stop failed"
  detail := failure.detail
  status := 409
  retryable := true
  resourceRef := some (deploymentRef deployment.id)

/-- The document a stop saves before it calls the engine. -/
def stoppingDeployment (deployment : Deployment) (now : Datetime) : Deployment :=
  { deployment with
    desiredState := .stopped
    observedState := .stopping
    updatedAt := now
    resourceVersion := deployment.resourceVersion + 1 }

def stoppedDeployment (stopping : Deployment) (now : Datetime) : Deployment :=
  { stopping with
    observedState := .stopped
    updatedAt := now
    resourceVersion := stopping.resourceVersion + 1 }

def retiredEndpoint (endpoint : Endpoint) (now : Datetime) : Endpoint :=
  { endpoint with
    state := .retired
    updatedAt := now
    resourceVersion := endpoint.resourceVersion + 1 }

def persistStopping (deployment stopping : Deployment) : Service Unit :=
  match deployment.observedState with
  | .starting | .stopping =>
      service.transitionAndPersist (taskId deployment.id) .canceling
        (store (.saveDeployment stopping))
  | _ =>
      service.admitAndPersist (taskId deployment.id) .canceling
        (store (.saveDeployment stopping))

/-- Release the recorded execution, when there is one. -/
def releaseExecution (deployment : Deployment) (endpoint : Option Endpoint)
    (executionRef : Option String) : Service Unit := do
  match executionRef, endpoint with
  | some executionRef, some endpoint => do
      let released ← catchFailure (service.stopExecution deployment endpoint executionRef)
      match released with
      | .ok _ => pure ()
      | .error failure => throw (.product (stopFailedError deployment failure))
  | _, _ => pure ()

def persistStopped (stopped : Deployment) (endpoint : Option Endpoint) (stoppedAt : Datetime) :
    Service Unit :=
  match endpoint with
  | none => store (.saveDeployment stopped)
  | some endpoint => store (.savePair stopped (retiredEndpoint endpoint stoppedAt) none)

/-- `_stop_deployment` -/
def stopLocked (deploymentId : Uuid) : Service Deployment := do
  let deployment ← requireDeployment deploymentId
  if deployment.observedState = .stopped then pure deployment
  else do
    let now ← utcNow
    let stopping := stoppingDeployment deployment now
    service.persistStopping deployment stopping
    appendEvent deployment.id .stopping "Stopping deployment" none
    let endpoint ← previousEndpoint deployment
    let executionRef ← store (.getExecutionRef deployment.id)
    service.releaseExecution deployment endpoint executionRef
    let stoppedAt ← utcNow
    let stopped := stoppedDeployment stopping stoppedAt
    service.completeAfterPersist (taskId deployment.id)
      (persistStopped stopped endpoint stoppedAt)
    appendEvent deployment.id .released "Deployment stopped and resources released" none
    recordDeploymentDiagnostic deployment.id "Deployment stopped and resources released" "info"
      (some "REACTOR.DEPLOYMENT.RELEASED")
    pure stopped

def stopDeployment (deploymentId : Uuid) : Service Deployment :=
  Fallible.locked (service.stopLocked deploymentId)

def versionConflict : ReactorProductError where
  code := "REACTOR_VERSION_CONFLICT"
  title := "Deployment changed"
  detail := "Refresh the Deployment before restarting."
  status := 409

def startingDeployment (deployment : Deployment) (nodeRef : NodeRef) (now : Datetime) :
    Deployment :=
  { deployment with
    nodeRef := some nodeRef
    desiredState := .active
    observedState := .starting
    failure := none
    updatedAt := now
    resourceVersion := deployment.resourceVersion + 1 }

/-- `restart_deployment` once the deployment is stopped. -/
def relaunch (deployment : Deployment) (nodeRef : NodeRef) : Service Deployment := do
  let now ← utcNow
  let starting := startingDeployment deployment nodeRef now
  service.admitAndPersist (taskId starting.id) .accepted (store (.saveDeployment starting))
  appendEvent deployment.id .queued "Deployment restart queued" none
  service.transitionAndPersist (taskId starting.id) .dispatching (service.launch starting)

def restartLocked (deploymentId : Uuid) (nodeRef : NodeRef) (resourceVersion : Nat) :
    Service Deployment := do
  let deployment ← requireDeployment deploymentId
  if deployment.resourceVersion ≠ resourceVersion then throw (.product versionConflict)
  else if deployment.observedState ≠ .stopped then do
    let deployment ← service.stopDeployment deploymentId
    service.relaunch deployment nodeRef
  else service.relaunch deployment nodeRef

def restartDeployment (deploymentId : Uuid) (nodeRef : NodeRef) (resourceVersion : Nat) :
    Service Deployment :=
  Fallible.locked (service.restartLocked deploymentId nodeRef resourceVersion)

def body : Command → Service Deployment
  | .create request idempotencyKey => service.createDeployment request idempotencyKey
  | .get deploymentId => service.getDeployment deploymentId
  | .stop deploymentId => service.stopDeployment deploymentId
  | .restart deploymentId nodeRef resourceVersion =>
      service.restartDeployment deploymentId nodeRef resourceVersion

/-- The service under any interleaving of its commands. -/
def system (environment : Environment) : System where
  signature := productSignature
  State := State
  Command := Command
  Result := Except Raised Deployment
  body := fun command => (service.body command).attempt
  exec := Performs environment

end ReactorService

end CyreneReactor
