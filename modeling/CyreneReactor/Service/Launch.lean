import CyreneReactor.Interaction.Program
import CyreneReactor.Service.World

namespace CyreneReactor

open Interaction

/-! `ReactorService._launch` and the helpers of `service.py` it calls. -/

/-- A program of the service, which ends with a value or raises. -/
abbrev Service (α : Type) := Fallible productSignature Raised α

/-- `ActivitySourceLifecycleProtocol`, which is implemented by the activity SDK.  The
service relies on its laws: a state is reported, and then the callback runs once; that a
task is complete is reported once the callback has returned. -/
structure ActivitySourceLifecycle where
  admitAndPersist : ∀ {program : Type → Type} [Monad program] {α : Type},
    (ActivityCall → program Unit) → String → TaskState → program α → program α
  transitionAndPersist : ∀ {program : Type → Type} [Monad program] {α : Type},
    (ActivityCall → program Unit) → String → TaskState → program α → program α
  completeAfterPersist : ∀ {program : Type → Type} [Monad program],
    (ActivityCall → program Unit) → String → program Unit → program Unit
  admits : ∀ {program : Type → Type} [Monad program] {α : Type}
    (report : ActivityCall → program Unit) (taskId : String) (state : TaskState)
    (persist : program α), admitAndPersist report taskId state persist = do
      report (.admission taskId state)
      persist
  transitions : ∀ {program : Type → Type} [Monad program] {α : Type}
    (report : ActivityCall → program Unit) (taskId : String) (state : TaskState)
    (persist : program α), transitionAndPersist report taskId state persist = do
      report (.transition taskId state)
      persist
  completes : ∀ {program : Type → Type} [Monad program] (report : ActivityCall → program Unit)
    (taskId : String) (persist : program Unit), completeAfterPersist report taskId persist = do
      persist
      report (.complete taskId)

/-- What is fixed when the service is constructed.  `requestHash` is the digest of a
request's canonical JSON body. -/
structure ReactorService where
  engine : Engine
  engines : Option (List (String × Engine))
  activity : Option ActivitySourceLifecycle
  requestHash : CreateDeploymentRequest → String

namespace ReactorService

def call (op : Op) : Service op.Answer := Fallible.perform (show productSignature.Op from op)

def utcNow : Service Datetime := call .utcNow

def uuid4 : Service Uuid := call .uuid4

def store (op : StoreOp) : Service op.Answer := call (.store op)

/-- A save raises before it writes where one of its texts cannot be encoded. -/
def storeEncoded (encodes : Bool) (op : StoreOp) : Service op.Answer := do
  Fallible.ofExcept (if encodes then .ok () else .error (.other .valueError))
  store op

def report (activity : ActivityCall) : Service Unit := call (.activity activity)

/-- Call the port; what it raises is raised here. -/
def port (engine : Engine) (request : PortCall) : Service request.Value := do
  let answer ← call (.port engine request)
  Fallible.ofExcept answer

variable (service : ReactorService)

def tracked : Bool := service.activity.isSome

def admitAndPersist {α : Type} (taskId : String) (state : TaskState) (persist : Service α) :
    Service α :=
  match service.activity with
  | none => persist
  | some activity => activity.admitAndPersist report taskId state persist

def transitionAndPersist {α : Type} (taskId : String) (state : TaskState)
    (persist : Service α) : Service α :=
  match service.activity with
  | none => persist
  | some activity => activity.transitionAndPersist report taskId state persist

def completeAfterPersist (taskId : String) (persist : Service Unit) : Service Unit :=
  match service.activity with
  | none => persist
  | some activity => activity.completeAfterPersist report taskId persist

theorem admitAndPersist_eq {α : Type} (taskId : String) (state : TaskState) (persist : Service α) :
    service.admitAndPersist taskId state persist =
      if service.tracked then do
        report (.admission taskId state)
        persist
      else persist := by
  unfold admitAndPersist tracked
  cases service.activity with
  | none => rfl
  | some activity => exact activity.admits report taskId state persist

theorem transitionAndPersist_eq {α : Type} (taskId : String) (state : TaskState)
    (persist : Service α) :
    service.transitionAndPersist taskId state persist =
      if service.tracked then do
        report (.transition taskId state)
        persist
      else persist := by
  unfold transitionAndPersist tracked
  cases service.activity with
  | none => rfl
  | some activity => exact activity.transitions report taskId state persist

theorem completeAfterPersist_eq (taskId : String) (persist : Service Unit) :
    service.completeAfterPersist taskId persist =
      if service.tracked then do
        persist
        report (.complete taskId)
      else persist := by
  unfold completeAfterPersist tracked
  cases service.activity with
  | none => rfl
  | some activity => exact activity.completes report taskId persist

def taskId (deploymentId : Uuid) : String := "deployment:" ++ deploymentId.str

/-- `_require_deployment` -/
def requireDeployment (deploymentId : Uuid) : Service Deployment := do
  let found ← store (.getDeployment deploymentId)
  match found with
  | some deployment => pure deployment
  | none =>
      throw (.product
        { code := "REACTOR_DEPLOYMENT_NOT_FOUND"
          title := "Deployment not found"
          detail := "No Deployment exists with the requested id."
          status := 404 })

/-- `_require_endpoint` -/
def requireEndpoint (endpointId : Uuid) : Service Endpoint := do
  let found ← store (.getEndpoint endpointId)
  match found with
  | some endpoint => pure endpoint
  | none =>
      throw (.product
        { code := "REACTOR_ENDPOINT_NOT_FOUND"
          title := "Endpoint not found"
          detail := "No Endpoint exists with the requested id."
          status := 404 })

/-- The endpoint a deployment names, when it names one. -/
def previousEndpoint (deployment : Deployment) : Service (Option Endpoint) :=
  match deployment.endpointId with
  | none => pure none
  | some endpointId => do
      let endpoint ← requireEndpoint endpointId
      pure (some endpoint)

/-- `deployment.endpoint_id or uuid4()` -/
def endpointIdOrNew (deployment : Deployment) : Service Uuid :=
  match deployment.endpointId with
  | none => uuid4
  | some endpointId => pure endpointId

/-- The endpoint `_launch` builds at its three saves: the next version of the one
the deployment names, or its first.  `model` is given the previous endpoint. -/
def nextEndpoint (deployment : Deployment) (state : EndpointState) (url : String)
    (model : Option Endpoint → Option String) (now : Datetime) : Service Endpoint := do
  let previous ← previousEndpoint deployment
  let endpointId ← endpointIdOrNew deployment
  Fallible.ofExcept (Endpoint.create endpointId deployment.id state url (model previous)
    ((previous.map Endpoint.createdAt).getD now) now
    ((previous.map fun endpoint => endpoint.resourceVersion + 1).getD 1))

/-- `_engine` -/
def engineFor (bindingId : String) : Except Raised Engine :=
  match service.engines with
  | none => .ok service.engine
  | some engines =>
      match engines.lookup bindingId with
      | some engine => .ok engine
      | none =>
          .error (.product
            { code := "REACTOR_BINDING_PERMISSION_DENIED"
              title := "Serving binding unavailable"
              detail := "Select a configured serving binding available to this workspace."
              status := 403 })

/-- `_append_deployment_event` -/
def appendEvent (deploymentId : Uuid) (phase : DeploymentPhase) (message : String)
    (failureCode : Option String) : Service Unit := do
  let occurredAt ← utcNow
  let appended ←
    store (.appendDeploymentEvent deploymentId phase message occurredAt failureCode)
  let _ ← Fallible.ofExcept appended
  pure ()

/-- `record_deployment_diagnostic` -/
def recordDeploymentDiagnostic (deploymentId : Uuid) (message level : String)
    (code : Option String) : Service Unit := do
  let now ← utcNow
  store (.appendDeploymentDiagnostics deploymentId
    [[("timestamp", .str now.isoformat), ("level", .str level), ("source", .str "product"),
      ("stream", .str "combined"), ("code", (code.map JsonValue.str).getD .null),
      ("message", .str message), ("resourceId", .str deploymentId.str)]])

/-- `engine.stop(..., model_version=...)`.  The keyword is passed even when it is
`None`, which a method without it refuses before it runs. -/
def stopWithModelVersion (engine : Engine) (executionRef endpointUrl : String)
    (deploymentId : Uuid) (modelDigest : String) (modelVersion : Option ModelVersionDocument) :
    Service Unit :=
  if engine.takesModelVersion .stop then do
    let _ ← port engine (.stop executionRef endpointUrl deploymentId modelDigest modelVersion)
    pure ()
  else throw (.other .typeError)

/-- The body of a `try` whose handler catches `ServingEngineFailure` only: the
failure is handed over as a value and everything else goes on raising. -/
def catchFailure {α : Type} (body : Service α) : Service (Except ServingEngineFailure α) :=
  ExceptT.mk do
    let outcome ← body.attempt
    match outcome with
    | .ok value => pure (.ok (.ok value))
    | .error (.serving failure) => pure (.ok (.error failure))
    | .error raised => pure (.error raised)

/-- The failure `_fail_composed_identity` raises, from what its clean-up left. -/
def identityMismatch (modelVersion : ModelVersionDocument) (handle : EngineHandle)
    (cleanup : Except ServingEngineFailure Unit) : ServingEngineFailure :=
  let detail := "MODEL_VERSION_IDENTITY_MISMATCH: engine did not load " ++ modelVersion.id
  match cleanup with
  | .ok _ =>
      { detail, executionRef := some handle.executionRef, endpointUrl := some handle.endpointUrl
        status := 409, retryable := false, referencesEncode := handle.referencesEncode }
  | .error failure =>
      { detail := detail ++ "; cleanup failed: " ++ failure.detail
        executionRef := some handle.executionRef, endpointUrl := some handle.endpointUrl
        status := 409, retryable := failure.retryable
        detailEncodes := failure.detailEncodes, referencesEncode := handle.referencesEncode }

/-- `_fail_composed_identity` -/
def failComposedIdentity (engine : Engine) (deployment : Deployment)
    (modelVersion : ModelVersionDocument) (handle : EngineHandle) : Service Unit := do
  let cleanup ← catchFailure do
    Fallible.ofExcept (requireModelVersionKeyword engine .stop)
    stopWithModelVersion engine handle.executionRef handle.endpointUrl deployment.id
      modelVersion.id (some modelVersion)
  throw (.serving (identityMismatch modelVersion handle cleanup))

/-- `_verify_started_model_identity` -/
def verifyStartedModelIdentity (engine : Engine) (deploymentId : Uuid) (handle : EngineHandle) :
    Service Unit :=
  if engine.verifiesServedModel then
    port engine
      (.verifyServedModel deploymentId handle.executionRef handle.endpointUrl handle.model)
  else pure ()

/-- `_cleanup_started_execution`: the failure whose text is returned, if the release
failed. -/
def cleanupStartedExecution (engine : Engine) (deployment : Deployment) (handle : EngineHandle)
    (modelDigest : String) (modelVersion : Option ModelVersionDocument) :
    Service (Option ServingEngineFailure) := do
  let cleanup ← catchFailure (
    if modelVersion.isSome then do
      Fallible.ofExcept (requireModelVersionKeyword engine .stop)
      stopWithModelVersion engine handle.executionRef handle.endpointUrl deployment.id
        modelDigest modelVersion
    else
      stopWithModelVersion engine handle.executionRef handle.endpointUrl deployment.id
        modelDigest modelVersion)
  match cleanup with
  | .ok _ => pure none
  | .error failure => pure (some failure)

/-- Save the evidence `prepare` returns before anything is started. -/
def prepareLaunch (deployment : Deployment) : Service Deployment := do
  appendEvent deployment.id .loading
    ("Serving process starting on " ++ deployment.servingBindingId) none
  let engine ← Fallible.ofExcept (service.engineFor deployment.servingBindingId)
  let prepared ← port engine (.prepare deployment.id)
  match prepared with
  | none => pure deployment
  | some prepared => do
      let now ← utcNow
      let pending ← nextEndpoint deployment .provisioning prepared.endpointUrl
        (fun _ => prepared.model) now
      let deployment := { deployment with endpointId := some pending.id }
      storeEncoded prepared.encodes
        (.savePair deployment pending (some prepared.executionRef))
      pure deployment

/-- The local variables of `_launch` that its handler reads. -/
structure LaunchLocals where
  model : Option ArtifactRef := none
  engine : Option Engine := none
  modelVersion : Option ModelVersionDocument := none
  handle : Option EngineHandle := none
  cleanupHandled : Bool := false

/-- A statement of the `try` block: when it raises, the handler finds `locals`. -/
def during {α : Type} (locals : LaunchLocals) (body : Service α) :
    Fallible productSignature (LaunchLocals × Raised) α :=
  ExceptT.adapt (Prod.mk locals) body

/-- The start itself, with the version check of a composed model. -/
def startExecution (deployment : Deployment) (engine : Engine) (model : ArtifactRef)
    (locals : LaunchLocals) : Fallible productSignature (LaunchLocals × Raised) EngineHandle :=
  match locals.modelVersion with
  | none => during locals (port engine (.start deployment.id model deployment.nodeRef none))
  | some version => do
      during locals (Fallible.ofExcept (requireModelVersionKeyword engine .start))
      let handle ← during locals
        (port engine (.start deployment.id model deployment.nodeRef (some version)))
      if handle.modelVersionId ≠ some version.id then do
        during { locals with handle := some handle, cleanupHandled := true }
          (failComposedIdentity engine deployment version handle)
        pure handle
      else pure handle

/-- The `try` block of `_launch`. -/
def launchAttempt (deployment : Deployment) :
    Fallible productSignature (LaunchLocals × Raised) EngineHandle := do
  let model ← during {} (Fallible.ofExcept (servingArtifact deployment))
  let locals : LaunchLocals := { model := some model }
  let engine ← during locals (Fallible.ofExcept (service.engineFor deployment.servingBindingId))
  let modelVersion := runtimeModelVersion deployment
  let locals := { locals with engine := some engine, modelVersion }
  let handle ← startExecution deployment engine model locals
  let locals := { locals with handle := some handle }
  during locals (appendEvent deployment.id .probing "Waiting for inference readiness probe" none)
  during locals (verifyStartedModelIdentity engine deployment.id handle)
  pure handle

/-- The failure the handler goes on with after its clean-up. -/
def compensated (failure : ServingEngineFailure) :
    Option ServingEngineFailure → ServingEngineFailure
  | none => failure
  | some cleanup =>
      { detail := failure.detail ++ "; cleanup failed: " ++ cleanup.detail
        executionRef := failure.executionRef
        endpointUrl := failure.endpointUrl
        status := failure.status
        retryable := true
        detailEncodes := failure.detailEncodes && cleanup.detailEncodes
        referencesEncode := failure.referencesEncode }

/-- The clean-up at the head of the handler, and the failure it leaves. -/
def compensate (deployment : Deployment) (locals : LaunchLocals)
    (failure : ServingEngineFailure) : Service ServingEngineFailure :=
  match locals.engine, locals.handle, locals.cleanupHandled, locals.model with
  | some engine, some handle, false, some model => do
      let cleanup ← cleanupStartedExecution engine deployment handle
        ((locals.modelVersion.map ModelVersionDocument.id).getD model.digest) locals.modelVersion
      pure (compensated failure cleanup)
  | _, _, _, _ => pure failure

def deploymentRef (deploymentId : Uuid) : String := "/api/v1/deployments/" ++ deploymentId.str

def startFailedError (deployment : Deployment) (failure : ServingEngineFailure) :
    ReactorProductError where
  code := "REACTOR_SERVING_START_FAILED"
  title := "Serving startup failed"
  detail := failure.detail
  status := failure.status
  retryable := failure.retryable
  resourceRef := some (deploymentRef deployment.id)

/-- The document a failed launch leaves. -/
def failedDeployment (deployment : Deployment) (failure : ServingEngineFailure)
    (now : Datetime) : Deployment :=
  let error := startFailedError deployment failure
  { deployment with
    observedState := .failed
    failure := some
      { code := error.code, message := error.detail, retryable := error.retryable }
    updatedAt := now
    resourceVersion := deployment.resourceVersion + 1 }

/-- `persist_failure` -/
def persistFailure (deployment failed : Deployment) (failure : ServingEngineFailure) :
    Service Unit :=
  match failure.executionRef, failure.endpointUrl with
  | some executionRef, some endpointUrl => do
      let now ← utcNow
      let endpoint ← nextEndpoint deployment .unhealthy endpointUrl
        (fun previous => previous.bind Endpoint.model) now
      storeEncoded (failure.detailEncodes && failure.referencesEncode)
        (.savePair { failed with endpointId := some endpoint.id } endpoint (some executionRef))
  | _, _ => storeEncoded failure.detailEncodes (.saveDeployment failed)

/-- The handler of `_launch` after its clean-up: persist FAILED and raise. -/
def failLaunch (deployment : Deployment) (failure : ServingEngineFailure) :
    Service Deployment := do
  let error := startFailedError deployment failure
  let now ← utcNow
  let failed := failedDeployment deployment failure now
  service.completeAfterPersist (taskId deployment.id) (persistFailure deployment failed failure)
  appendEvent deployment.id .failed failure.detail (some error.code)
  recordDeploymentDiagnostic deployment.id ("Serving startup failed: " ++ failure.detail) "error"
    (some error.code)
  throw (.product error)

/-- `{handle.model}` in a message -/
def modelText (model : Option String) : String := model.getD "None"

/-- The document a verified launch leaves. -/
def readyDeployment (deployment : Deployment) (endpointId : Uuid) (readyAt : Datetime) :
    Deployment :=
  { deployment with
    observedState := .ready
    endpointId := some endpointId
    updatedAt := readyAt
    failure := none
    resourceVersion := deployment.resourceVersion + 1 }

/-- The end of `_launch` after a verified start: persist READY. -/
def finishLaunch (deployment : Deployment) (handle : EngineHandle) : Service Deployment := do
  let readyAt ← utcNow
  let endpoint ← nextEndpoint deployment .ready handle.endpointUrl (fun _ => handle.model) readyAt
  let ready := readyDeployment deployment endpoint.id readyAt
  service.completeAfterPersist (taskId deployment.id)
    (storeEncoded handle.encodes (.savePair ready endpoint (some handle.executionRef)))
  appendEvent deployment.id .ready ("Model identity verified: " ++ modelText handle.model) none
  recordDeploymentDiagnostic deployment.id ("Deployment ready: " ++ modelText handle.model) "info"
    (some "REACTOR.DEPLOYMENT.READY")
  pure ready

/-- What follows the `try` block: the end of the launch, or the handler. -/
def handleAttempt (deployment : Deployment) :
    Except (LaunchLocals × Raised) EngineHandle → Service Deployment
  | .ok handle => service.finishLaunch deployment handle
  | .error (locals, .serving failure) => do
      let failure ← compensate deployment locals failure
      service.failLaunch deployment failure
  | .error (_, raised) => throw raised

/-- `_launch` -/
def launch (deployment : Deployment) : Service Deployment := do
  let deployment ← service.prepareLaunch deployment
  let attempt ← ExceptT.lift (service.launchAttempt deployment).attempt
  service.handleAttempt deployment attempt

end ReactorService

end CyreneReactor
