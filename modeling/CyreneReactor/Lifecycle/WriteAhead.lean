import CyreneReactor.Interaction.Obeys
import CyreneReactor.Lifecycle.Commands
import CyreneReactor.Lifecycle.Walks

namespace CyreneReactor

open Interaction ReactorService

/-! No command starts an execution before it saved the evidence of it.

An engine that names every execution after its deployment is asked to start one only
after a pair with that name was saved, and no other name is ever saved.
-/

/-- A pair with evidence was saved for this deployment. -/
def Saved (id : Uuid) (past : Past productSignature) : Prop :=
  ∃ deployment endpoint executionRef,
    ⟨.store (.savePair deployment endpoint (some executionRef)), ()⟩ ∈ past ∧ deployment.id = id

/-- What may be called after a past. -/
def WriteAhead (past : Past productSignature) : Op → Prop
  | .store (.savePair deployment endpoint (some executionRef)) =>
      executionRef = deployment.id.str ∧ deployment.endpointId = some endpoint.id
  | .port _ (.start id _ _ _) => Saved id past
  | _ => True

/-- The failure names no other execution. -/
def ServingEngineFailure.Names (failure : ServingEngineFailure) (name : String) : Prop :=
  ∀ executionRef, failure.executionRef = some executionRef → executionRef = name

/-- Engines that prepare every launch and name executions after deployments. -/
def Named : (op : Op) → op.Answer → Prop
  | .port _ (.prepare id), answer => ∀ prepared, answer = .ok prepared →
      ∃ handle : EngineHandle, prepared = some handle ∧ handle.executionRef = id.str
  | .port _ (.start id _ _ _), .ok (handle : EngineHandle) => handle.executionRef = id.str
  | .port _ (.start id _ _ _), .error (.serving failure) => failure.Names id.str
  | .port _ (.verifyServedModel _ executionRef _ _), .error (.serving failure) =>
      failure.Names executionRef
  | .store (.appendDeploymentEvent _ _ _ _ _), .error raised => ∀ failure, raised ≠ .serving failure
  | _, _ => True

section Programs

variable {ε α β : Type} {past : Past productSignature}

/-- Whatever came before, the program writes ahead, and `good` holds of what it comes to. -/
def Ahead (program : Fallible productSignature ε α) (good : Except ε α → Prop) : Prop :=
  ∀ past, program.run.Obeys WriteAhead Named (fun outcome _ => good outcome) past

theorem writeAhead_of_silent {op : Op} (silent : op.Silent) : WriteAhead past op := by
  obtain ⟨unmarked, _⟩ := silent
  cases op with
  | utcNow | uuid4 | activity => trivial
  | store op =>
      cases op with
      | savePair deployment endpoint executionRef =>
          have none := unmarked () deployment.id
          simp [Op.mark, StoreOp.mark] at none
      | getDeployment | getEndpoint | getExecutionRef | resolveIdempotency | createIntent
      | saveDeployment | appendDeploymentEvent | appendDeploymentDiagnostics => trivial
  | port engine request =>
      cases request with
      | start id model node version =>
          have none := unmarked (.error (.other .typeError)) id
          simp [Op.mark, PortCall.mark] at none
      | prepare | inspect | verifyServedModel | stop => trivial

namespace Ahead

variable {good : Except ε α → Prop}

theorem mono {program : Fallible productSignature ε α} {strong : Except ε α → Prop}
    (ahead : Ahead program strong) (implies : ∀ outcome, strong outcome → good outcome) :
    Ahead program good :=
  fun past => (ahead past).mono fun outcome _ => implies outcome

theorem pure {value : α} (holds : good (.ok value)) : Ahead (pure value) good := fun _ => holds

theorem throw {raised : ε} (holds : good (.error raised)) : Ahead (throw raised) good :=
  fun _ => holds

theorem bind {first : Fallible productSignature ε β} {next : β → Fallible productSignature ε α}
    {middle : Except ε β → Prop} (ahead : Ahead first middle)
    (returned : ∀ value, middle (.ok value) → Ahead (next value) good)
    (raised : ∀ raised, middle (.error raised) → good (.error raised)) :
    Ahead (first >>= next) good := by
  intro past
  apply Fallible.obeys_bind
  apply (ahead past).mono
  intro outcome after holds
  cases outcome with
  | ok value => exact returned value holds after
  | error error => exact raised error holds

theorem call {op : Op} {good : Except Raised op.Answer → Prop} (allowed : ∀ past, WriteAhead past op)
    (answered : ∀ answer, Named op answer → good (.ok answer)) :
    Ahead (ReactorService.call op) good :=
  fun past => ⟨allowed past, answered⟩

theorem call_bind {op : Op} {next : op.Answer → Service α} {good : Except Raised α → Prop}
    (allowed : ∀ past, WriteAhead past op)
    (answered : ∀ answer, Named op answer → Ahead (next answer) good) :
    Ahead (ReactorService.call op >>= next) good :=
  fun past => Fallible.obeys_call (allowed past) fun answer named => answered answer named _

theorem port {engine : Engine} {request : PortCall} {good : Except Raised request.Value → Prop}
    (allowed : ∀ past, WriteAhead past (.port engine request))
    (answered : ∀ answer, Named (.port engine request) answer → good answer) :
    Ahead (ReactorService.port engine request) good :=
  call_bind allowed fun answer named _ => answered answer named

theorem silent {program : Fallible productSignature ε α} (silent : Silent program.run)
    (holds : ∀ outcome, good outcome) : Ahead program good := by
  intro past
  generalize program.run = run at silent
  induction run generalizing past with
  | pure value => exact holds value
  | call op next ih =>
      exact ⟨writeAhead_of_silent silent.1, fun answer _ => ih answer _ (silent.2 answer)⟩
  | acquire | release => exact silent.elim

theorem ofExcept {outcome : Except ε α} (holds : good outcome) :
    Ahead (Fallible.ofExcept outcome) good := fun _ => holds

theorem locked {program : Fallible productSignature ε α} (ahead : Ahead program good) :
    Ahead (Fallible.locked program) good := by
  intro past
  have obeys := ahead past
  apply Program.Obeys.bind
  exact obeys

theorem during {locals : LaunchLocals} {body : Service β}
    {good : Except (LaunchLocals × Raised) β → Prop}
    (ahead : Ahead body fun outcome => good (outcome.mapError (Prod.mk locals))) :
    Ahead (ReactorService.during locals body) good := by
  intro past
  apply Program.Obeys.bind
  exact ahead past

end Ahead

/-- Nothing in particular. -/
abbrev anything : Except ε α → Prop := fun _ => True

/-- No engine failed. -/
def Calm (outcome : Except Raised α) : Prop := ∀ failure, outcome ≠ .error (.serving failure)

theorem Ahead.then {first : Fallible productSignature ε β} {next : β → Fallible productSignature ε α}
    (ahead : Ahead first anything) (rest : ∀ value, Ahead (next value) anything) :
    Ahead (first >>= next) anything :=
  ahead.bind (fun value _ => rest value) fun _ _ => trivial

theorem ahead_store {op : StoreOp} (plain : ∀ past, WriteAhead past (.store op)) :
    Ahead (store op) anything :=
  .call plain fun _ _ => trivial

theorem ahead_storeEncoded {encodes : Bool} {op : StoreOp}
    (plain : ∀ past, WriteAhead past (.store op)) : Ahead (storeEncoded encodes op) anything := by
  apply (Ahead.silent (silent_ofExcept _) fun _ => trivial).then
  exact fun _ => ahead_store plain

theorem ahead_report (activity : ActivityCall) : Ahead (report activity) anything :=
  .call (fun _ => trivial) fun _ _ => trivial

theorem ahead_appendEvent (id : Uuid) (phase : DeploymentPhase) (message : String)
    (code : Option String) : Ahead (appendEvent id phase message code) Calm := by
  apply Ahead.call_bind
  · exact fun _ => trivial
  intro now _
  apply Ahead.call_bind
  · exact fun _ => trivial
  intro appended named past
  cases appended with
  | ok event =>
      intro failure same
      cases same
  | error raised =>
      intro failure same
      cases same
      exact named failure rfl

theorem ahead_recordDeploymentDiagnostic (id : Uuid) (message level : String)
    (code : Option String) : Ahead (recordDeploymentDiagnostic id message level code) anything :=
  .call_bind (fun _ => trivial) fun _ _ => ahead_store fun _ => trivial

variable (service : ReactorService)

theorem ahead_admitAndPersist (task : String) (state : TaskState) {persist : Service α}
    (ahead : Ahead persist anything) :
    Ahead (service.admitAndPersist task state persist) anything := by
  rw [admitAndPersist_eq]
  split
  · exact (ahead_report _).then fun _ => ahead
  · exact ahead

theorem ahead_transitionAndPersist (task : String) (state : TaskState) {persist : Service α}
    (ahead : Ahead persist anything) :
    Ahead (service.transitionAndPersist task state persist) anything := by
  rw [transitionAndPersist_eq]
  split
  · exact (ahead_report _).then fun _ => ahead
  · exact ahead

theorem ahead_completeAfterPersist (task : String) {persist : Service Unit}
    (ahead : Ahead persist anything) :
    Ahead (service.completeAfterPersist task persist) anything := by
  rw [completeAfterPersist_eq]
  split
  · exact ahead.then fun _ => ahead_report _
  · exact ahead

/-- A prepared launch has saved its evidence. -/
theorem obeys_prepareLaunch (deployment : Deployment) (past : Past productSignature) :
    (service.prepareLaunch deployment).run.Obeys WriteAhead Named (fun outcome past =>
      ∀ prepared, outcome = .ok prepared → prepared.id = deployment.id ∧ Saved deployment.id past)
      past := by
  have raises : ∀ {raised : Raised} {past : Past productSignature}, ∀ prepared,
      (Except.error raised : Except Raised Deployment) = .ok prepared →
      prepared.id = deployment.id ∧ Saved deployment.id past := by
    intro raised past prepared same
    cases same
  have saves : ∀ (handle : EngineHandle) past, handle.executionRef = deployment.id.str →
      (do
        let now ← utcNow
        let pending ← nextEndpoint deployment .provisioning handle.endpointUrl
          (fun _ => handle.model) now
        let deployment := { deployment with endpointId := some pending.id }
        storeEncoded handle.encodes (.savePair deployment pending (some handle.executionRef))
        pure deployment : Service Deployment).run.Obeys WriteAhead Named (fun outcome past =>
          ∀ prepared, outcome = .ok prepared →
            prepared.id = deployment.id ∧ Saved deployment.id past) past := by
    intro handle past same
    apply Fallible.obeys_call
    · trivial
    intro now _
    apply Fallible.obeys_bind
    have built : Ahead (nextEndpoint deployment .provisioning handle.endpointUrl
      (fun _ => handle.model) now) anything := .silent (silent_nextEndpoint _ _ _ _ _) fun _ => trivial
    apply (built _).mono
    intro outcome past _
    cases outcome with
    | error raised => exact raises
    | ok pending =>
        apply Fallible.obeys_bind
        apply Fallible.obeys_ofExcept
        · exact fun raised _ => raises
        intro _ _
        refine ⟨⟨same, rfl⟩, fun _ _ prepared returned => ?_⟩
        cases returned
        exact ⟨rfl, _, _, _, List.mem_append_right _ (List.mem_singleton_self _), rfl⟩
  apply Fallible.obeys_bind
  apply (ahead_appendEvent deployment.id _ _ _ past).mono
  intro outcome past _
  cases outcome with
  | error raised => exact raises
  | ok _ =>
      apply Fallible.obeys_ofExcept
      · exact fun raised _ => raises
      intro engine _
      apply Fallible.obeys_bind
      apply Fallible.obeys_call
      · trivial
      intro answer named
      cases answer with
      | error raised => exact raises
      | ok offered =>
          obtain ⟨handle, rfl, same⟩ := named offered rfl
          exact saves handle _ same

/-- What a started execution is called, and what a failed one is. -/
def NamedAfter (deployment : Deployment) :
    Except (LaunchLocals × Raised) EngineHandle → Prop
  | .ok handle => handle.executionRef = deployment.id.str
  | .error (_, .serving failure) => failure.Names deployment.id.str
  | .error _ => True

variable {service}

/-- The failure an attempt ended with names the execution of the deployment. -/
def FailsNamed (name : String) (outcome : Except Raised α) : Prop :=
  ∀ failure, outcome = .error (.serving failure) → failure.Names name

theorem Calm.failsNamed {outcome : Except Raised α} (calm : Calm outcome) (name : String) :
    FailsNamed name outcome :=
  fun failure same => absurd same (calm failure)

theorem ahead_catchFailure {body : Service α} (silent : Silent body.run) :
    Ahead (catchFailure body) Calm := by
  intro past
  apply Program.Obeys.bind
  have ahead : Ahead body anything := .silent silent fun _ => trivial
  apply (ahead past).mono
  intro outcome past _
  rcases outcome with (error | failure | kind) | value <;> exact fun _ same => by cases same

theorem ahead_failComposedIdentity (engine : Engine) (deployment : Deployment)
    (version : ModelVersionDocument) (handle : EngineHandle) :
    Ahead (failComposedIdentity engine deployment version handle)
      (FailsNamed handle.executionRef) := by
  apply Ahead.bind
  · apply ahead_catchFailure
    apply Silent.bind_run (silent_ofExcept _)
    exact fun _ => silent_stopWithModelVersion _ _ _ _ _ _
  · intro cleanup _ past failure same
    cases same
    cases cleanup <;> exact fun executionRef named => (Option.some.inj named).symm
  · intro raised calm failure same
    cases same
    exact absurd rfl (calm failure)

theorem ahead_verifyStartedModelIdentity (engine : Engine) (id : Uuid) (handle : EngineHandle) :
    Ahead (verifyStartedModelIdentity engine id handle) (FailsNamed handle.executionRef) := by
  unfold verifyStartedModelIdentity
  cases engine.verifiesServedModel with
  | true =>
      apply Ahead.port
      · exact fun _ => trivial
      · intro answer named failure same
        subst same
        exact named
  | false => exact .pure fun failure same => by cases same

/-- A part of the attempt after its start. -/
theorem ahead_during {deployment : Deployment} {handle : EngineHandle} {locals : LaunchLocals}
    {body : Service α} {next : α → Fallible productSignature (LaunchLocals × Raised) EngineHandle}
    (same : handle.executionRef = deployment.id.str)
    (ahead : Ahead body (FailsNamed handle.executionRef))
    (rest : ∀ value, Ahead (next value) (NamedAfter deployment)) :
    Ahead (during locals body >>= next) (NamedAfter deployment) := by
  let fails : Except (LaunchLocals × Raised) α → Prop := fun outcome =>
    ∀ locals failure, outcome = .error (locals, .serving failure) →
      failure.Names deployment.id.str
  have named : Ahead (during locals body) fails := by
    apply Ahead.during
    apply ahead.mono
    intro outcome named locals' failure failed
    cases outcome with
    | ok value => cases failed
    | error raised =>
        cases failed
        exact same ▸ named failure rfl
  apply named.bind
  · exact fun value _ => rest value
  · intro raised failed
    obtain ⟨locals', error | failure | kind⟩ := raised
    · trivial
    · exact failed locals' failure rfl
    · trivial

/-- A start is made after the save, and what it comes to names the same execution. -/
theorem obeys_startExecution {deployment : Deployment} {engine : Engine} {model : ArtifactRef}
    {locals : LaunchLocals} {past : Past productSignature} (saved : Saved deployment.id past) :
    (startExecution deployment engine model locals).run.Obeys WriteAhead Named
      (fun outcome _ => NamedAfter deployment outcome) past := by
  have started : ∀ version, (during locals
      (port engine (.start deployment.id model deployment.nodeRef version))).run.Obeys WriteAhead
      Named (fun outcome _ => NamedAfter deployment outcome) past := by
    intro version
    apply Program.Obeys.bind
    apply Fallible.obeys_call
    · exact saved
    intro answer named
    rcases answer with (error | failure | kind) | handle
    · trivial
    · exact named
    · trivial
    · exact named
  unfold startExecution
  split
  · exact started none
  · rename_i version _
    apply Fallible.obeys_bind
    apply Program.Obeys.bind
    cases supported : requireModelVersionKeyword engine .start with
    | error raised =>
        unfold requireModelVersionKeyword at supported
        split at supported
        · cases supported
        · cases supported
          intro executionRef named
          cases named
    | ok _ =>
        apply Fallible.obeys_bind
        apply (started (some version)).mono
        intro outcome past holds
        cases outcome with
        | error raised => exact holds
        | ok handle =>
            have same : handle.executionRef = deployment.id.str := holds
            have identified : Ahead (if handle.modelVersionId ≠ some version.id then do
                  during { locals with handle := some handle, cleanupHandled := true }
                    (failComposedIdentity engine deployment version handle)
                  pure handle
                else pure handle) (NamedAfter deployment) := by
              split
              · exact ahead_during same (ahead_failComposedIdentity _ _ _ _) fun _ => .pure same
              · exact .pure same
            exact identified past

theorem obeys_launchAttempt {deployment : Deployment} {past : Past productSignature}
    (saved : Saved deployment.id past) :
    (service.launchAttempt deployment).run.Obeys WriteAhead Named
      (fun outcome _ => NamedAfter deployment outcome) past := by
  obtain ⟨model, placed⟩ := servingArtifact_validated deployment
  unfold launchAttempt
  rw [placed]
  apply Fallible.obeys_bind
  apply Program.Obeys.bind
  apply Fallible.obeys_bind
  apply Program.Obeys.bind
  cases bound : service.engineFor deployment.servingBindingId with
  | error raised =>
      obtain ⟨error, rfl⟩ := InSection.engineFor_error bound
      trivial
  | ok engine =>
      apply Fallible.obeys_bind
      apply (obeys_startExecution saved).mono
      intro outcome past named
      cases outcome with
      | error raised => exact named
      | ok handle =>
          have verified : ∀ locals : LaunchLocals, Ahead (do
              during locals (appendEvent deployment.id .probing
                "Waiting for inference readiness probe" none)
              during locals (verifyStartedModelIdentity engine deployment.id handle)
              pure handle) (NamedAfter deployment) := by
            intro locals
            apply ahead_during named
            · exact (ahead_appendEvent _ _ _ _).mono fun _ calm => calm.failsNamed _
            intro _
            apply ahead_during named
            · exact ahead_verifyStartedModelIdentity engine deployment.id handle
            exact fun _ => .pure named
          exact verified _ past

/-- What is persisted of a failed launch names the execution of the deployment. -/
theorem ahead_failLaunch {deployment : Deployment} {failure : ServingEngineFailure}
    (named : failure.Names deployment.id.str) :
    Ahead (service.failLaunch deployment failure) anything := by
  have persists : ∀ failed : Deployment, failed.id = deployment.id →
      Ahead (persistFailure deployment failed failure) anything := by
    intro failed same
    have plain : Ahead (storeEncoded failure.detailEncodes (.saveDeployment failed)) anything :=
      ahead_storeEncoded fun _ => trivial
    unfold persistFailure
    cases execution : failure.executionRef with
    | none => exact plain
    | some executionRef =>
        cases failure.endpointUrl with
        | none => exact plain
        | some endpointUrl =>
            apply (Ahead.silent silent_utcNow fun _ => trivial).then
            intro now
            apply (Ahead.silent (silent_nextEndpoint _ _ _ _ _) fun _ => trivial).then
            intro endpoint
            apply ahead_storeEncoded
            intro past
            have written : executionRef = failed.id.str := by
              rw [same]
              exact named executionRef execution
            exact ⟨written, rfl⟩
  apply (Ahead.silent silent_utcNow fun _ => trivial).then
  intro now
  apply (ahead_completeAfterPersist service (taskId deployment.id)
    (persists (failedDeployment deployment failure now) rfl)).then
  intro _
  apply ((ahead_appendEvent _ _ _ _).mono fun _ _ => trivial).then
  intro _
  apply (ahead_recordDeploymentDiagnostic _ _ _ _).then
  exact fun _ => .throw trivial

theorem ahead_finishLaunch {deployment : Deployment} {handle : EngineHandle}
    (named : handle.executionRef = deployment.id.str) :
    Ahead (service.finishLaunch deployment handle) anything := by
  apply (Ahead.silent silent_utcNow fun _ => trivial).then
  intro readyAt
  apply (Ahead.silent (silent_nextEndpoint _ _ _ _ _) fun _ => trivial).then
  intro endpoint
  have persists : Ahead (storeEncoded handle.encodes
      (.savePair (readyDeployment deployment endpoint.id readyAt) endpoint
        (some handle.executionRef))) anything := ahead_storeEncoded fun _ => ⟨named, rfl⟩
  apply (ahead_completeAfterPersist service _ persists).then
  intro _
  apply ((ahead_appendEvent _ _ _ _).mono fun _ _ => trivial).then
  intro _
  apply (ahead_recordDeploymentDiagnostic _ _ _ _).then
  exact fun _ => .pure trivial

theorem ahead_handleAttempt {deployment : Deployment}
    {outcome : Except (LaunchLocals × Raised) EngineHandle} (named : NamedAfter deployment outcome) :
    Ahead (service.handleAttempt deployment outcome) anything := by
  rcases outcome with ⟨locals, error | failure | kind⟩ | handle
  · exact .throw trivial
  · have compensates : Ahead (compensate deployment locals failure) fun outcome =>
        ∀ failure, outcome = .ok failure → failure.Names deployment.id.str := by
      unfold compensate
      split
      · rename_i engine handle model _ _ _ _
        apply (Ahead.silent (silent_cleanupStartedExecution engine deployment handle _ _)
          fun _ => trivial : Ahead _ anything).bind
        · intro detail _
          apply Ahead.pure
          intro last same
          cases same
          cases detail <;> exact named
        · intro raised _ last same
          cases same
      · apply Ahead.pure
        intro last same
        cases same
        exact named
    apply compensates.bind
    · exact fun failure named => ahead_failLaunch (named failure rfl)
    · exact fun _ _ => trivial
  · exact .throw trivial
  · exact ahead_finishLaunch named

theorem ahead_launch (deployment : Deployment) : Ahead (service.launch deployment) anything := by
  intro past
  apply Fallible.obeys_bind
  apply (obeys_prepareLaunch service deployment past).mono
  intro outcome past holds
  cases outcome with
  | error raised => trivial
  | ok prepared =>
      obtain ⟨same, saved⟩ := holds prepared rfl
      rw [← same] at saved
      apply Fallible.obeys_bind
      apply Program.Obeys.bind
      apply (obeys_launchAttempt saved).mono
      intro outcome past named
      exact ahead_handleAttempt named past

theorem ahead_requireDeployment_bind {id : Uuid} {next : Deployment → Service α}
    (rest : ∀ deployment, Ahead (next deployment) anything) :
    Ahead (requireDeployment id >>= next) anything :=
  (Ahead.silent (silent_requireDeployment id) fun _ => trivial).then rest

theorem ahead_getDeployment (id : Uuid) : Ahead (service.getDeployment id) anything := by
  have commits : ∀ deployment endpoint version,
      Ahead (compareAndSave deployment endpoint version) anything := by
    intro deployment endpoint version
    apply ahead_requireDeployment_bind
    intro current
    split
    · exact .pure trivial
    · have plain : Ahead (store (.savePair deployment endpoint none)) anything :=
        ahead_store fun _ => trivial
      exact plain.then fun _ => .pure trivial
  have observes : ∀ deployment endpointId,
      Ahead (service.observeLive deployment endpointId) anything := by
    intro deployment endpointId
    apply (Ahead.silent (silent_requireEndpoint endpointId) fun _ => trivial).then
    intro endpoint
    apply (Ahead.silent (silent_store rfl) fun _ => trivial).then
    intro executionRef
    cases executionRef with
    | none => exact .pure trivial
    | some executionRef =>
        apply (Ahead.silent (silent_inspectExecution service _ _ _) fun _ => trivial).then
        intro observation
        unfold reconcile
        split
        · apply (Ahead.silent silent_utcNow fun _ => trivial).then
          exact fun now => (commits _ _ _).locked
        · exact .pure trivial
  apply ahead_requireDeployment_bind
  intro deployment
  split
  · exact observes _ _
  · exact observes _ _
  · exact .pure trivial

theorem ahead_queued {message : String} (deployment : Deployment) :
    Ahead (do
      appendEvent deployment.id .queued message none
      service.transitionAndPersist (taskId deployment.id) .dispatching
        (service.launch deployment)) anything := by
  apply ((ahead_appendEvent _ _ _ _).mono fun _ _ => trivial).then
  intro _
  exact ahead_transitionAndPersist service _ _ (ahead_launch deployment)

theorem ahead_createLocked (request : CreateDeploymentRequest) (key : Option String) :
    Ahead (service.createLocked request key) anything := by
  have admits : ∀ deployment digest,
      Ahead (service.admitDeployment deployment key digest) anything := by
    intro deployment digest
    have persists : Ahead (persistIntent deployment key digest) anything := by
      apply (ahead_store fun _ => trivial : Ahead (store (.createIntent deployment key digest)) _).then
      exact fun outcome => .ofExcept trivial
    have bound : Ahead (Fallible.ofExcept (service.engineFor deployment.servingBindingId) :
      Service Engine) anything := .ofExcept trivial
    apply bound.then
    intro _
    apply (ahead_admitAndPersist service _ _ persists).then
    intro replay
    cases replay with
    | none => exact ahead_queued deployment
    | some replay =>
        apply (ahead_completeAfterPersist service _ (.pure trivial)).then
        exact fun _ => ahead_getDeployment replay
  apply (Ahead.silent (silent_store rfl) fun _ => trivial).then
  intro resolved
  apply (Ahead.ofExcept trivial).then
  intro replay
  cases replay with
  | some id => exact ahead_getDeployment id
  | none =>
      apply (Ahead.silent silent_utcNow fun _ => trivial).then
      intro now
      apply (Ahead.silent silent_uuid4 fun _ => trivial).then
      exact fun id => admits _ _

theorem ahead_stopLocked (id : Uuid) : Ahead (service.stopLocked id) anything := by
  have begins : ∀ deployment now,
      Ahead (service.persistStopping deployment (stoppingDeployment deployment now)) anything := by
    intro deployment now
    have saves : Ahead (store (.saveDeployment (stoppingDeployment deployment now))) anything :=
      ahead_store fun _ => trivial
    unfold persistStopping
    split
    · exact ahead_transitionAndPersist service _ _ saves
    · exact ahead_transitionAndPersist service _ _ saves
    · exact ahead_admitAndPersist service _ _ saves
  have ends : ∀ stopped endpoint stoppedAt,
      Ahead (persistStopped stopped endpoint stoppedAt) anything := by
    intro stopped endpoint stoppedAt
    cases endpoint with
    | none => exact ahead_store fun _ => trivial
    | some endpoint => exact ahead_store fun _ => trivial
  apply ahead_requireDeployment_bind
  intro deployment
  split
  · exact .pure trivial
  apply (Ahead.silent silent_utcNow fun _ => trivial).then
  intro now
  apply (begins deployment now).then
  intro _
  apply ((ahead_appendEvent _ _ _ _).mono fun _ _ => trivial).then
  intro _
  apply (Ahead.silent (silent_previousEndpoint deployment) fun _ => trivial).then
  intro endpoint
  apply (Ahead.silent (silent_store rfl) fun _ => trivial).then
  intro executionRef
  apply (Ahead.silent (silent_releaseExecution service deployment endpoint executionRef)
    fun _ => trivial).then
  intro _
  apply (Ahead.silent silent_utcNow fun _ => trivial).then
  intro stoppedAt
  apply (ahead_completeAfterPersist service (taskId deployment.id) (ends _ endpoint stoppedAt)).then
  intro _
  apply ((ahead_appendEvent _ _ _ _).mono fun _ _ => trivial).then
  intro _
  apply (ahead_recordDeploymentDiagnostic _ _ _ _).then
  exact fun _ => .pure trivial

theorem ahead_restartLocked (id : Uuid) (nodeRef : NodeRef) (version : Nat) :
    Ahead (service.restartLocked id nodeRef version) anything := by
  have relaunches : ∀ deployment, Ahead (service.relaunch deployment nodeRef) anything := by
    intro deployment
    apply (Ahead.silent silent_utcNow fun _ => trivial).then
    intro now
    have saves : Ahead (store (.saveDeployment (startingDeployment deployment nodeRef now)))
      anything := ahead_store fun _ => trivial
    apply (ahead_admitAndPersist service (taskId deployment.id) .accepted saves).then
    exact fun _ => ahead_queued (startingDeployment deployment nodeRef now)
  apply ahead_requireDeployment_bind
  intro deployment
  split
  · exact .throw trivial
  split
  · exact (ahead_stopLocked id).locked.then fun deployment => relaunches deployment
  · exact relaunches deployment

/-- Every command writes ahead. -/
theorem ahead_body (command : Command) : Ahead (service.body command) anything := by
  cases command with
  | create request key => exact (ahead_createLocked request key).locked
  | get id => exact ahead_getDeployment id
  | stop id => exact (ahead_stopLocked id).locked
  | restart id nodeRef version => exact (ahead_restartLocked id nodeRef version).locked

end Programs

end CyreneReactor
