import CyreneReactor.Interaction.Calls
import CyreneReactor.Service.Commands

namespace CyreneReactor

open Interaction ReactorService

/-! What the commands call with and without the command lock.

Only reads, the clock and the inspection of an execution go without it.
-/

/-- What a thread may call when it holds the lock so often. -/
def Guarded : Nat → Op → Prop
  | _, .utcNow => True
  | depth, .uuid4 => 0 < depth
  | depth, .store op => op.writes = true → 0 < depth
  | _, .port _ (.inspect _ _ _ _ _) => True
  | depth, .port _ _ => 0 < depth
  | depth, .activity call => 0 < depth ∧ ∃ id, call.task = taskId id

section Programs

variable {ε α β : Type} {depth : Nat}

/-- The program calls nothing else, and gives back what it takes of the lock. -/
abbrev Guards (depth : Nat) (program : Fallible productSignature ε α) : Prop :=
  Fallible.Calls Guarded (fun _ _ => True) depth program

theorem guards_call {op : Op} (allowed : Guarded depth op) : Guards depth (call op) :=
  .perform allowed

theorem guards_reads {op : StoreOp} (reads : op.writes = false) : Guards depth (store op) := by
  apply guards_call
  intro writes
  rw [reads] at writes
  cases writes

theorem guards_utcNow : Guards depth utcNow := guards_call trivial

theorem guards_writes {op : StoreOp} : Guards (depth + 1) (store op) :=
  guards_call fun _ => Nat.succ_pos depth

theorem guards_storeEncoded {encodes : Bool} {op : StoreOp} :
    Guards (depth + 1) (storeEncoded encodes op) :=
  (Fallible.Calls.ofExcept _).bind fun _ => guards_writes

theorem guards_port {engine : Engine} {request : PortCall}
    (allowed : Guarded depth (.port engine request)) : Guards depth (port engine request) :=
  (guards_call allowed).bind fun answer => .ofExcept answer

theorem guards_held {engine : Engine} {request : PortCall} :
    Guards (depth + 1) (port engine request) := by
  apply guards_port
  cases request with
  | inspect => trivial
  | prepare | start | verifyServedModel | stop => exact Nat.succ_pos depth

theorem guards_report {activity : ActivityCall} {id : Uuid} (about : activity.task = taskId id) :
    Guards (depth + 1) (report activity) :=
  guards_call ⟨Nat.succ_pos depth, id, about⟩

theorem guards_catchFailure {body : Service α} (guards : Guards depth body) :
    Guards depth (catchFailure body) := by
  apply Program.Calls.bind
  apply Program.Calls.mono guards
  intro outcome after same
  subst same
  rcases outcome with (error | failure | kind) | value <;> rfl

theorem guards_during {locals : LaunchLocals} {body : Service α} (guards : Guards depth body) :
    Guards depth (during locals body) := by
  apply Program.Calls.bind
  exact Program.Calls.mono guards fun _ _ same => same

variable (service : ReactorService)

theorem guards_admitAndPersist (id : Uuid) (state : TaskState) {persist : Service α}
    (guards : Guards (depth + 1) persist) :
    Guards (depth + 1) (service.admitAndPersist (taskId id) state persist) := by
  rw [admitAndPersist_eq]
  split
  · exact (guards_report rfl).bind fun _ => guards
  · exact guards

theorem guards_transitionAndPersist (id : Uuid) (state : TaskState) {persist : Service α}
    (guards : Guards (depth + 1) persist) :
    Guards (depth + 1) (service.transitionAndPersist (taskId id) state persist) := by
  rw [transitionAndPersist_eq]
  split
  · exact (guards_report rfl).bind fun _ => guards
  · exact guards

theorem guards_completeAfterPersist (id : Uuid) {persist : Service Unit}
    (guards : Guards (depth + 1) persist) :
    Guards (depth + 1) (service.completeAfterPersist (taskId id) persist) := by
  rw [completeAfterPersist_eq]
  split
  · exact guards.bind fun _ => guards_report rfl
  · exact guards

theorem guards_requireDeployment (id : Uuid) : Guards depth (requireDeployment id) := by
  apply (guards_reads rfl).bind
  intro found
  cases found with
  | none => exact .throw _
  | some deployment => exact .pure _

theorem guards_requireEndpoint (id : Uuid) : Guards depth (requireEndpoint id) := by
  apply (guards_reads rfl).bind
  intro found
  cases found with
  | none => exact .throw _
  | some endpoint => exact .pure _

theorem guards_previousEndpoint (deployment : Deployment) :
    Guards depth (previousEndpoint deployment) := by
  unfold previousEndpoint
  split
  · exact .pure _
  · exact (guards_requireEndpoint _).bind fun _ => .pure _

theorem guards_nextEndpoint (deployment : Deployment) (state : EndpointState) (url : String)
    (model : Option Endpoint → Option String) (now : Datetime) :
    Guards (depth + 1) (nextEndpoint deployment state url model now) := by
  apply (guards_previousEndpoint deployment).bind
  intro previous
  have drawn : Guards (depth + 1) (endpointIdOrNew deployment) := by
    unfold endpointIdOrNew
    split
    · exact guards_call (Nat.succ_pos depth)
    · exact .pure _
  exact drawn.bind fun _ => .ofExcept _

theorem guards_appendEvent (id : Uuid) (phase : DeploymentPhase) (message : String)
    (code : Option String) : Guards (depth + 1) (appendEvent id phase message code) := by
  apply guards_utcNow.bind
  intro now
  apply guards_writes.bind
  intro appended
  exact (Fallible.Calls.ofExcept appended).bind fun _ => .pure _

theorem guards_recordDeploymentDiagnostic (id : Uuid) (message level : String)
    (code : Option String) :
    Guards (depth + 1) (recordDeploymentDiagnostic id message level code) :=
  guards_utcNow.bind fun _ => guards_writes

theorem guards_stopWithModelVersion (engine : Engine) (reference url : String) (id : Uuid)
    (digest : String) (version : Option ModelVersionDocument) :
    Guards (depth + 1) (stopWithModelVersion engine reference url id digest version) := by
  unfold stopWithModelVersion
  split
  · exact guards_held.bind fun _ => .pure _
  · exact .throw _

theorem guards_failComposedIdentity (engine : Engine) (deployment : Deployment)
    (version : ModelVersionDocument) (handle : EngineHandle) :
    Guards (depth + 1) (failComposedIdentity engine deployment version handle) := by
  apply Fallible.Calls.bind
  · apply guards_catchFailure
    apply (Fallible.Calls.ofExcept (requireModelVersionKeyword engine .stop)).bind
    exact fun _ => guards_stopWithModelVersion engine handle.executionRef handle.endpointUrl
      deployment.id version.id (some version)
  · exact fun _ => .throw _

theorem guards_verifyStartedModelIdentity (engine : Engine) (id : Uuid) (handle : EngineHandle) :
    Guards (depth + 1) (verifyStartedModelIdentity engine id handle) := by
  unfold verifyStartedModelIdentity
  cases engine.verifiesServedModel with
  | true => exact guards_held
  | false => exact .pure _

theorem guards_cleanupStartedExecution (engine : Engine) (deployment : Deployment)
    (handle : EngineHandle) (digest : String) (version : Option ModelVersionDocument) :
    Guards (depth + 1) (cleanupStartedExecution engine deployment handle digest version) := by
  apply Fallible.Calls.bind
  · apply guards_catchFailure
    split
    · exact (Fallible.Calls.ofExcept _).bind fun _ => guards_stopWithModelVersion _ _ _ _ _ _
    · exact guards_stopWithModelVersion _ _ _ _ _ _
  · intro cleanup
    cases cleanup with
    | ok value => exact .pure _
    | error failure => exact .pure _

theorem guards_prepareLaunch (deployment : Deployment) :
    Guards (depth + 1) (service.prepareLaunch deployment) := by
  apply (guards_appendEvent _ _ _ _).bind
  intro _
  apply (Fallible.Calls.ofExcept _).bind
  intro engine
  apply guards_held.bind
  intro prepared
  cases prepared with
  | none => exact .pure _
  | some prepared =>
      apply guards_utcNow.bind
      intro now
      apply (guards_nextEndpoint _ _ _ _ _).bind
      intro pending
      exact guards_storeEncoded.bind fun _ => .pure _

theorem guards_startExecution (deployment : Deployment) (engine : Engine) (model : ArtifactRef)
    (locals : LaunchLocals) :
    Guards (depth + 1) (startExecution deployment engine model locals) := by
  unfold startExecution
  split
  · exact guards_during guards_held
  · apply (guards_during (.ofExcept _)).bind
    intro _
    apply (guards_during guards_held).bind
    intro handle
    split
    · exact (guards_during (guards_failComposedIdentity _ _ _ _)).bind fun _ => .pure _
    · exact .pure _

theorem guards_launchAttempt (deployment : Deployment) :
    Guards (depth + 1) (service.launchAttempt deployment) := by
  apply (guards_during (.ofExcept _)).bind
  intro model
  apply (guards_during (.ofExcept _)).bind
  intro engine
  apply (guards_startExecution _ _ _ _).bind
  intro handle
  apply (guards_during (guards_appendEvent _ _ _ _)).bind
  intro _
  exact (guards_during (guards_verifyStartedModelIdentity _ _ _)).bind fun _ => .pure _

theorem guards_persistFailure (deployment failed : Deployment) (failure : ServingEngineFailure) :
    Guards (depth + 1) (persistFailure deployment failed failure) := by
  unfold persistFailure
  generalize failure.executionRef = reference, failure.endpointUrl = url
  cases reference with
  | none => exact guards_storeEncoded
  | some reference =>
      cases url with
      | none => exact guards_storeEncoded
      | some url =>
          apply guards_utcNow.bind
          intro now
          exact (guards_nextEndpoint _ _ _ _ _).bind fun _ => guards_storeEncoded

theorem guards_failLaunch (deployment : Deployment) (failure : ServingEngineFailure) :
    Guards (depth + 1) (service.failLaunch deployment failure) := by
  apply guards_utcNow.bind
  intro now
  apply (guards_completeAfterPersist service _ (guards_persistFailure _ _ _)).bind
  intro _
  apply (guards_appendEvent _ _ _ _).bind
  intro _
  exact (guards_recordDeploymentDiagnostic _ _ _ _).bind fun _ => .throw _

theorem guards_finishLaunch (deployment : Deployment) (handle : EngineHandle) :
    Guards (depth + 1) (service.finishLaunch deployment handle) := by
  apply guards_utcNow.bind
  intro readyAt
  apply (guards_nextEndpoint _ _ _ _ _).bind
  intro endpoint
  apply (guards_completeAfterPersist service _ guards_storeEncoded).bind
  intro _
  apply (guards_appendEvent _ _ _ _).bind
  intro _
  exact (guards_recordDeploymentDiagnostic _ _ _ _).bind fun _ => .pure _

theorem guards_compensate (deployment : Deployment) (locals : LaunchLocals)
    (failure : ServingEngineFailure) : Guards (depth + 1) (compensate deployment locals failure) := by
  unfold compensate
  split
  · exact (guards_cleanupStartedExecution _ _ _ _ _).bind fun _ => .pure _
  · exact .pure _

theorem guards_handleAttempt (deployment : Deployment)
    (attempt : Except (LaunchLocals × Raised) EngineHandle) :
    Guards (depth + 1) (service.handleAttempt deployment attempt) := by
  rcases attempt with ⟨locals, error | failure | kind⟩ | handle
  · exact .throw _
  · exact (guards_compensate _ _ _).bind fun _ => guards_failLaunch service _ _
  · exact .throw _
  · exact guards_finishLaunch service _ _

theorem guards_launch (deployment : Deployment) :
    Guards (depth + 1) (service.launch deployment) := by
  apply (guards_prepareLaunch service deployment).bind
  intro prepared
  apply Fallible.Calls.bind
  · apply Program.Calls.bind
    apply Program.Calls.mono (guards_launchAttempt service prepared)
    intro outcome after same
    exact same
  · exact guards_handleAttempt service prepared

theorem guards_inspectExecution (deployment : Deployment) (endpoint : Endpoint)
    (reference : String) : Guards depth (service.inspectExecution deployment endpoint reference) := by
  apply (Fallible.Calls.ofExcept _).bind
  intro model
  apply (Fallible.Calls.ofExcept _).bind
  intro engine
  split
  · exact guards_port trivial
  · apply (Fallible.Calls.ofExcept _).bind
    intro _
    exact (Fallible.Calls.ofExcept _).bind fun _ => guards_port trivial

theorem guards_compareAndSave (deployment : Deployment) (endpoint : Endpoint) (version : Nat) :
    Guards (depth + 1) (compareAndSave deployment endpoint version) := by
  apply (guards_requireDeployment _).bind
  intro current
  split
  · exact .pure _
  · exact guards_writes.bind fun _ => .pure _

theorem guards_getDeployment (id : Uuid) : Guards depth (service.getDeployment id) := by
  apply (guards_requireDeployment id).bind
  intro deployment
  have observed : ∀ endpointId, Guards depth (service.observeLive deployment endpointId) := by
    intro endpointId
    apply (guards_requireEndpoint endpointId).bind
    intro endpoint
    apply (guards_reads rfl).bind
    intro reference
    cases reference with
    | none => exact .pure _
    | some reference =>
        apply (guards_inspectExecution service _ _ _).bind
        intro observation
        unfold reconcile
        split
        · exact guards_utcNow.bind fun _ => .locked (guards_compareAndSave _ _ _)
        · exact .pure _
  split
  · exact observed _
  · exact observed _
  · exact .pure _

theorem guards_afterIntent (deployment : Deployment) (replay : Option Uuid) :
    Guards (depth + 1) (service.afterIntent deployment replay) := by
  cases replay with
  | some other =>
      apply (guards_completeAfterPersist service _ (.pure ())).bind
      exact fun _ => guards_getDeployment service other
  | none =>
      apply (guards_appendEvent _ _ _ _).bind
      intro _
      exact guards_transitionAndPersist service _ _ (guards_launch service _)

theorem guards_createLocked (request : CreateDeploymentRequest) (key : Option String) :
    Guards (depth + 1) (service.createLocked request key) := by
  apply (guards_reads rfl).bind
  intro resolved
  apply (Fallible.Calls.ofExcept resolved).bind
  intro replay
  cases replay with
  | some id => exact guards_getDeployment service id
  | none =>
      apply guards_utcNow.bind
      intro now
      have draws : Guards (depth + 1) uuid4 := guards_call (Nat.succ_pos depth)
      apply draws.bind
      intro id
      apply (Fallible.Calls.ofExcept _).bind
      intro _
      have intent : Guards (depth + 1) (persistIntent (newDeployment request id now) key
          (service.requestHash request)) := guards_writes.bind fun outcome => .ofExcept outcome
      apply (guards_admitAndPersist service _ _ intent).bind
      exact guards_afterIntent service _

theorem guards_stopExecution (deployment : Deployment) (endpoint : Endpoint) (reference : String) :
    Guards (depth + 1) (service.stopExecution deployment endpoint reference) := by
  apply (Fallible.Calls.ofExcept _).bind
  intro model
  apply (Fallible.Calls.ofExcept _).bind
  intro engine
  split
  · exact guards_held.bind fun _ => .pure _
  · apply (Fallible.Calls.ofExcept _).bind
    intro _
    apply (Fallible.Calls.ofExcept _).bind
    intro identity
    exact guards_held.bind fun _ => .pure _

theorem guards_persistStopping (deployment stopping : Deployment) :
    Guards (depth + 1) (service.persistStopping deployment stopping) := by
  unfold persistStopping
  split
  · exact guards_transitionAndPersist service _ _ guards_writes
  · exact guards_transitionAndPersist service _ _ guards_writes
  · exact guards_admitAndPersist service _ _ guards_writes

theorem guards_releaseExecution (deployment : Deployment) (endpoint : Option Endpoint)
    (reference : Option String) :
    Guards (depth + 1) (service.releaseExecution deployment endpoint reference) := by
  unfold releaseExecution
  split
  · apply (guards_catchFailure (guards_stopExecution service _ _ _)).bind
    intro released
    cases released with
    | ok value => exact .pure _
    | error failure => exact .throw _
  · exact .pure _

theorem guards_stopLocked (id : Uuid) : Guards (depth + 1) (service.stopLocked id) := by
  apply (guards_requireDeployment id).bind
  intro deployment
  split
  · exact .pure _
  · apply guards_utcNow.bind
    intro now
    apply (guards_persistStopping service _ _).bind
    intro _
    apply (guards_appendEvent _ _ _ _).bind
    intro _
    apply (guards_previousEndpoint _).bind
    intro endpoint
    apply (guards_reads rfl).bind
    intro reference
    apply (guards_releaseExecution service _ _ _).bind
    intro _
    apply guards_utcNow.bind
    intro stoppedAt
    apply Fallible.Calls.bind
    · apply guards_completeAfterPersist
      unfold persistStopped
      split
      · exact guards_writes
      · exact guards_writes
    · intro _
      apply (guards_appendEvent _ _ _ _).bind
      intro _
      exact (guards_recordDeploymentDiagnostic _ _ _ _).bind fun _ => .pure _

theorem guards_relaunch (deployment : Deployment) (node : NodeRef) :
    Guards (depth + 1) (service.relaunch deployment node) := by
  apply guards_utcNow.bind
  intro now
  apply (guards_admitAndPersist service _ _ guards_writes).bind
  intro _
  apply (guards_appendEvent _ _ _ _).bind
  intro _
  exact guards_transitionAndPersist service _ _ (guards_launch service _)

theorem guards_restartLocked (id : Uuid) (node : NodeRef) (version : Nat) :
    Guards (depth + 1) (service.restartLocked id node version) := by
  apply (guards_requireDeployment id).bind
  intro deployment
  split
  · exact .throw _
  · split
    · apply Fallible.Calls.bind
      · exact .locked (guards_stopLocked service id)
      · exact fun stopped => guards_relaunch service stopped node
    · exact guards_relaunch service deployment node

theorem guards_body (command : Command) : Guards depth (service.body command) := by
  cases command with
  | create request key => exact .locked (guards_createLocked service request key)
  | get id => exact guards_getDeployment service id
  | stop id => exact .locked (guards_stopLocked service id)
  | restart id node version => exact .locked (guards_restartLocked service id node version)

end Programs

end CyreneReactor
