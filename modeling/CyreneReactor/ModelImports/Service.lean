import CyreneReactor.ModelImports.Request
import CyreneReactor.Service.Commands

namespace CyreneReactor.ModelImports

open Interaction

/-! `ReactorService.create_model_import` and the reads of model imports.

The state is the three tables together with a journal of what was done under the
command lock.
-/

inductive StoreOp where
  | resolveModelImportRequest (key : Option String) (digest idempotencyScope : String)
  | commitModelImportIntent (modelImport : ModelImport) (key : Option String)
      (digest idempotencyScope : String) (workspaceScope : Option WorkspaceScope) (grants : Grants)
  | saveModelImport (modelImport : ModelImport)
  | getUnscopedModelImport (id : Uuid)
  | getModelImportForWorkspace (id : Uuid) (organizationId workspaceId : String)
  | listModelImports
  | listModelImportsForWorkspace (organizationId workspaceId : String)

namespace StoreOp

def Answer : StoreOp → Type
  | resolveModelImportRequest _ _ _ => Except Raised (Option Uuid)
  | commitModelImportIntent _ _ _ _ _ _ => Except Raised (Option Uuid)
  | saveModelImport _ => Unit
  | getUnscopedModelImport _ => Option ModelImport
  | getModelImportForWorkspace _ _ _ => Option ModelImport
  | listModelImports => List ModelImport
  | listModelImportsForWorkspace _ _ => List ModelImport

def run (db : ImportDatabase) : (op : StoreOp) → op.Answer × ImportDatabase
  | resolveModelImportRequest key digest idempotencyScope =>
      (db.resolveModelImportRequest key digest idempotencyScope, db)
  | commitModelImportIntent modelImport key digest idempotencyScope workspaceScope grants =>
      db.commitModelImportIntent modelImport key digest idempotencyScope workspaceScope grants
  | saveModelImport modelImport => ((), db.saveModelImport modelImport)
  | getUnscopedModelImport id => (db.getUnscopedModelImport id, db)
  | getModelImportForWorkspace id organizationId workspaceId =>
      (db.getModelImportForWorkspace id organizationId workspaceId, db)
  | listModelImports => (db.listModelImports, db)
  | listModelImportsForWorkspace organizationId workspaceId =>
      (db.listModelImportsForWorkspace organizationId workspaceId, db)

def writes : StoreOp → Bool
  | commitModelImportIntent _ _ _ _ _ _ | saveModelImport _ => true
  | _ => false

theorem run_of_not_writes {op : StoreOp} (reads : op.writes = false) (db : ImportDatabase) :
    (op.run db).2 = db := by
  cases op <;> first | rfl | cases reads

end StoreOp

inductive Op where
  | utcNow
  | uuid4
  | store (op : StoreOp)
  | importModel (engine : Engine) (request : CreateModelImportRequest)
  | activity (call : ActivityCall)

namespace Op

/-- A binding that imports and a tracker that is told may both raise. -/
def Answer : Op → Type
  | utcNow => Datetime
  | uuid4 => Uuid
  | store op => op.Answer
  | importModel _ _ => Except Raised ModelImportResult
  | activity _ => Except Raised Unit

def effect (database : ImportDatabase) : Op → ImportDatabase
  | store op => (op.run database).2
  | _ => database

def writes : Op → Bool
  | store op => op.writes
  | _ => false

end Op

def importSignature : Signature := ⟨Op, Op.Answer⟩

/-- A program of the service, which ends with a value or raises. -/
abbrev Imports (α : Type) := Fallible importSignature Raised α

/-- The service with the grants that are fixed when it is constructed.  `sha256` is
the hexadecimal digest of a text. -/
structure ImportService where
  reactor : ReactorService
  workspaceServingBindingGrants : Grants
  sha256 : String → String

namespace ImportService

def call (op : Op) : Imports op.Answer := Fallible.perform (show importSignature.Op from op)

def store (op : StoreOp) : Imports op.Answer := call (.store op)

def report (activity : ActivityCall) : Imports Unit := do
  let answer ← call (.activity activity)
  Fallible.ofExcept answer

variable (service : ImportService)

def admitAndPersist {α : Type} (taskId : String) (state : TaskState) (persist : Imports α) :
    Imports α :=
  match service.reactor.activity with
  | none => persist
  | some activity => activity.admitAndPersist report taskId state persist

def transitionAndPersist {α : Type} (taskId : String) (state : TaskState)
    (persist : Imports α) : Imports α :=
  match service.reactor.activity with
  | none => persist
  | some activity => activity.transitionAndPersist report taskId state persist

def completeAfterPersist (taskId : String) (persist : Imports Unit) : Imports Unit :=
  match service.reactor.activity with
  | none => persist
  | some activity => activity.completeAfterPersist report taskId persist

theorem admitAndPersist_eq {α : Type} (taskId : String) (state : TaskState) (persist : Imports α) :
    service.admitAndPersist taskId state persist =
      if service.reactor.tracked then do
        report (.admission taskId state)
        persist
      else persist := by
  unfold admitAndPersist ReactorService.tracked
  cases service.reactor.activity with
  | none => rfl
  | some activity => exact activity.admits report taskId state persist

theorem transitionAndPersist_eq {α : Type} (taskId : String) (state : TaskState)
    (persist : Imports α) :
    service.transitionAndPersist taskId state persist =
      if service.reactor.tracked then do
        report (.transition taskId state)
        persist
      else persist := by
  unfold transitionAndPersist ReactorService.tracked
  cases service.reactor.activity with
  | none => rfl
  | some activity => exact activity.transitions report taskId state persist

theorem completeAfterPersist_eq (taskId : String) (persist : Imports Unit) :
    service.completeAfterPersist taskId persist =
      if service.reactor.tracked then do
        persist
        report (.complete taskId)
      else persist := by
  unfold completeAfterPersist ReactorService.tracked
  cases service.reactor.activity with
  | none => rfl
  | some activity => exact activity.completes report taskId persist

def taskId (id : Uuid) : String := "model-import:" ++ id.str

/-- `_model_import_idempotency_scope` -/
def modelImportIdempotencyScope : Option WorkspaceScope → String
  | none => "model-import"
  | some scope =>
      "model-import:workspace:" ++
        service.sha256 (JsonText.pair scope.organizationId scope.workspaceId)

def digest (request : CreateModelImportRequest) : String :=
  service.sha256 request.modelDumpJson

def trustRemoteCodeForbidden : ReactorProductError where
  code := "REACTOR_TRUST_REMOTE_CODE_FORBIDDEN"
  title := "Remote code is not admitted"
  detail := "trust_remote_code must remain disabled; this RC only imports " ++
    "self-contained config, tokenizer, and weight files."
  status := 422

def modelImportNotFound : ReactorProductError where
  code := "REACTOR_MODEL_IMPORT_NOT_FOUND"
  title := "Model import not found"
  detail := "No ModelImport exists with the requested id."
  status := 404

/-- `_require_model_import` -/
def requireModelImport (id : Uuid) : Imports ModelImport := do
  let found ← store (.getUnscopedModelImport id)
  match found with
  | some modelImport => pure modelImport
  | none => throw (.product modelImportNotFound)

/-- `_require_model_import_for_scope` -/
def requireModelImportForScope (id : Uuid) (scope : Option WorkspaceScope) :
    Imports ModelImport :=
  match scope with
  | none => requireModelImport id
  | some scope => do
      let found ← store
        (.getModelImportForWorkspace id scope.organizationId scope.workspaceId)
      match found with
      | some modelImport => pure modelImport
      | none => throw (.product modelImportNotFound)

def pendingImport (request : CreateModelImportRequest) (id : Uuid) (now : Datetime) :
    ModelImport where
  id := id
  name := request.name
  servingBindingId := request.servingBindingId
  source := request.source
  credentialRef := request.credentialRef
  state := .validating
  modelArtifact := none
  validation := none
  failure := none
  createdAt := now
  updatedAt := now
  resourceVersion := 1

def importFailed (id : Uuid) (failure : ServingEngineFailure) : ReactorProductError where
  code := "REACTOR_MODEL_IMPORT_FAILED"
  title := "Model import failed"
  detail := failure.detail
  status := failure.status
  retryable := failure.retryable
  resourceRef := some ("/api/v1/model-imports/" ++ id.str)

def failedImport (pending : ModelImport) (error : ReactorProductError) (now : Datetime) :
    ModelImport :=
  { pending with
    state := .failed
    failure := some ⟨error.code, error.detail, error.retryable⟩
    updatedAt := now
    resourceVersion := 2 }

def readyImport (pending : ModelImport) (result : ModelImportResult) (now : Datetime) :
    ModelImport :=
  { pending with
    state := .ready
    modelArtifact := some result.modelArtifact
    validation := some result.validation
    failure := none
    updatedAt := now
    resourceVersion := 2 }

/-- The checks made before anything is read. -/
def admission (request : CreateModelImportRequest) (scope : Option WorkspaceScope) :
    Except Raised Unit :=
  if request.trustRemoteCode then .error (.product trustRemoteCodeForbidden)
  else if scope.any fun scope =>
      !service.workspaceServingBindingGrants.admits request.servingBindingId scope then
    .error (.product bindingNotGranted)
  else .ok ()

/-- Ask the binding, and save what came of it. -/
def importAndSave (engine : Engine) (request : CreateModelImportRequest) (pending : ModelImport) :
    Imports ModelImport := do
  let answer ← call (.importModel engine request)
  match answer with
  | .ok result => do
      let now ← call .utcNow
      let ready := readyImport pending result now
      service.completeAfterPersist (taskId pending.id) (store (.saveModelImport ready))
      pure ready
  | .error (.serving failure) => do
      let error := importFailed pending.id failure
      let now ← call .utcNow
      let failed := failedImport pending error now
      service.completeAfterPersist (taskId pending.id) (store (.saveModelImport failed))
      throw (.product error)
  | .error raised => throw raised

/-- `persist_intent` -/
def persistIntent (pending : ModelImport) (request : CreateModelImportRequest)
    (idempotencyKey : Option String) (scope : Option WorkspaceScope) :
    Imports (Option Uuid) := do
  let answer ← store (.commitModelImportIntent pending idempotencyKey (service.digest request)
    (service.modelImportIdempotencyScope scope) scope service.workspaceServingBindingGrants)
  Fallible.ofExcept answer

/-- What follows a request whose key is new. -/
def admitImport (request : CreateModelImportRequest) (idempotencyKey : Option String)
    (scope : Option WorkspaceScope) : Imports ModelImport := do
  let engine ← Fallible.ofExcept (service.reactor.engineFor request.servingBindingId)
  let now ← call .utcNow
  let id ← call .uuid4
  let pending := pendingImport request id now
  let replay ← service.admitAndPersist (taskId pending.id) .accepted
    (service.persistIntent pending request idempotencyKey scope)
  match replay with
  | some original => do
      service.completeAfterPersist (taskId pending.id) (pure ())
      requireModelImportForScope original scope
  | none => do
      service.transitionAndPersist (taskId pending.id) .running (pure ())
      service.importAndSave engine request pending

/-- `create_model_import`, inside its `with self._commands:`. -/
def createUnderLock (request : CreateModelImportRequest) (idempotencyKey : Option String)
    (scope : Option WorkspaceScope) : Imports ModelImport := do
  Fallible.ofExcept (service.admission request scope)
  let answer ← store (.resolveModelImportRequest idempotencyKey (service.digest request)
    (service.modelImportIdempotencyScope scope))
  let replay ← Fallible.ofExcept answer
  match replay with
  | some original => requireModelImportForScope original scope
  | none => service.admitImport request idempotencyKey scope

def createModelImport (request : CreateModelImportRequest) (idempotencyKey : Option String)
    (scope : Option WorkspaceScope) : Imports ModelImport :=
  Fallible.locked (service.createUnderLock request idempotencyKey scope)

/-- `get_model_import` -/
def getModelImport (id : Uuid) : Imports ModelImport :=
  Fallible.locked (requireModelImport id)

/-- `list_model_imports` and `list_model_imports_for_workspace` -/
def listModelImports : Option WorkspaceScope → Imports (List ModelImport)
  | none => store .listModelImports
  | some scope => store (.listModelImportsForWorkspace scope.organizationId scope.workspaceId)

end ImportService

/-- The requests about imports, each with the scope of its caller. -/
inductive Command where
  | create (request : CreateModelImportRequest) (idempotencyKey : Option String)
      (scope : Option WorkspaceScope)
  | get (id : Uuid)
  | list (scope : Option WorkspaceScope)

def Command.scope : Command → Option WorkspaceScope
  | create _ _ scope | list scope => scope
  | get _ => none

structure Event where
  caller : Caller Command
  op : Op
  answer : op.Answer

structure State where
  database : ImportDatabase
  journal : List Event

def State.initial : State := ⟨.empty, []⟩

/-- The id an event drew, when it drew one. -/
def Event.issued? : Event → Option Uuid
  | ⟨_, .uuid4, id⟩ => some id
  | _ => none

def issued (journal : List Event) : List Uuid := journal.filterMap Event.issued?

/-- The answers the world may give: a drawn id is new, the store computes, and
clock, bindings and tracker are free. -/
def Answers (state : State) : (op : Op) → op.Answer → Prop
  | .uuid4, id => id ∉ issued state.journal
  | .store op, answer => answer = (op.run state.database).1
  | .utcNow, _ | .importModel _ _, _ | .activity _, _ => True

/-- One call: its answer, and the state it leaves. -/
structure Performs (caller : Caller Command) (held : Bool) (op : Op) (state : State)
    (answer : op.Answer) (next : State) : Prop where
  answers : Answers state op answer
  database : next.database = op.effect state.database
  journal : next.journal = if held then state.journal ++ [⟨caller, op, answer⟩] else state.journal

namespace ImportService

variable (service : ImportService)

def body : Command → Imports (List ModelImport)
  | .create request idempotencyKey scope => do
      let modelImport ← service.createModelImport request idempotencyKey scope
      pure [modelImport]
  | .get id => do
      let modelImport ← getModelImport id
      pure [modelImport]
  | .list scope => listModelImports scope

/-- The service under any interleaving of its requests. -/
def system : System where
  signature := importSignature
  State := State
  Command := Command
  Result := Except Raised (List ModelImport)
  body := fun command => (service.body command).attempt
  exec := Performs

end ImportService

end CyreneReactor.ModelImports
