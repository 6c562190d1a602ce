import CyreneReactor.Drafts.Store
import CyreneReactor.Service.Commands

namespace CyreneReactor.Drafts

open Interaction Relational

/-! The endpoints of `api.py` that create drafts and deployments.

Requests to create a deployment run as threads of the service; a deploy of a
draft is such a request under a key the API derives.  A desk is the service with
the draft rows beside it, and a record of what the API was asked.
-/

/-- `DeployDraftRequest` -/
structure DeployDraftRequest where
  name : String
  servingBindingId : String
  nodeRef : Option NodeRef

/-- What the endpoints run on.  `draftDigest` is the SHA-256 of the JSON text of a
command, and `validateArtifactRef` is `ArtifactRef.model_validate`. -/
structure Api where
  service : ReactorService
  draftDigest : CreateDeploymentDraft → String
  validateArtifactRef : List (String × JsonValue) → Option ArtifactRef

/-- `idempotency_key or "import:" + digest` -/
def importKey (key : Option String) (digest : String) : String :=
  match key with
  | none => "import:" ++ digest
  | some key => if key = "" then "import:" ++ digest else key

def deployKey (draftId : Uuid) : String := "deployment-draft:" ++ draftId.str

def productRef (kind : String) (id : Uuid) (resourceVersion : Nat) : ProductResourceRef where
  uri := "cyrene://reactor/" ++ kind ++ "/" ++ id.str
  id := id
  resourceVersion := resourceVersion

namespace Api

variable (api : Api)

/-- The draft `import_draft` builds before it stores it. -/
def newDraft (command : CreateDeploymentDraft) (id : Uuid) (now : Datetime) :
    DeploymentDraft where
  toCreateDeploymentDraft := command
  id := id
  resourceRef := productRef "deployment-drafts" id 1
  state := .draft
  deploymentRef := none
  createdAt := now

/-- `import_draft` -/
def importDraft (store : DraftStore) (command : CreateDeploymentDraft) (key : Option String)
    (id : Uuid) (now : Datetime) : Except Raised DeploymentDraft × DraftStore :=
  store.createDraft (newDraft command id now) (importKey key (api.draftDigest command))
    (api.draftDigest command)

/-- The member of a canonical version that holds its serving artifact. -/
def servingArtifactValue (version : ModelVersionDocument) : Option JsonValue :=
  match version.composition with
  | .fullModel => JsonValue.member? version.members "fullModelArtifact"
  | .basePlusLora =>
      match JsonValue.member? version.members "baseModel" with
      | some (.obj baseModel) => JsonValue.member? baseModel "artifact"
      | _ => none

/-- `model_version_artifact` -/
def modelVersionArtifact (version : ModelVersionDocument) : Except Raised ArtifactRef :=
  match servingArtifactValue version with
  | some (.obj members) =>
      match api.validateArtifactRef members with
      | some artifact => .ok artifact
      | none => .error (.other .valueError)
  | _ => .error (.other .valueError)

/-- The `CreateDeploymentRequest` of a deploy: the draft's version fixes the
composition, which the command does not set, and projects the artifact. -/
def deployRequest (command : DeployDraftRequest) (version : ModelVersionDocument) :
    Except Raised CreateDeploymentRequest :=
  match api.modelVersionArtifact version with
  | .error raised => .error raised
  | .ok artifact =>
      .ok
        { name := command.name
          modelArtifact := some artifact
          composition := version.composition
          modelVersion := some version
          servingBindingId := command.servingBindingId
          nodeRef := command.nodeRef
          validated := ⟨rfl, rfl⟩ }

/-- `deploy_draft` up to its call of the service. -/
def prepareDeploy (store : DraftStore) (draftId : Uuid) (command : DeployDraftRequest) :
    Except Raised (DeploymentDraft × CreateDeploymentRequest) :=
  match store.getDraft draftId with
  | .error raised => .error raised
  | .ok draft => (api.deployRequest command draft.modelVersion).map fun request => (draft, request)

/-- What `deploy_draft` saves once the service has answered. -/
def startedDraft (draft : DeploymentDraft) (deployment : Deployment) : DeploymentDraft :=
  { draft with
    state := .started
    deploymentRef := some
      (productRef "deployments" deployment.id deployment.resourceVersion) }

variable {api}

theorem deployRequest_version {command : DeployDraftRequest} {version : ModelVersionDocument}
    {request : CreateDeploymentRequest} (built : api.deployRequest command version = .ok request) :
    request.modelVersion = some version := by
  unfold deployRequest at built
  split at built <;> cases built
  rfl

theorem prepareDeploy_eq_ok {store : DraftStore} {draftId : Uuid} {command : DeployDraftRequest}
    {draft : DeploymentDraft} {request : CreateDeploymentRequest}
    (prepared : api.prepareDeploy store draftId command = .ok (draft, request)) :
    store.getDraft draftId = .ok draft ∧ request.modelVersion = some draft.modelVersion := by
  unfold prepareDeploy at prepared
  cases read : store.getDraft draftId with
  | error raised =>
      rw [read] at prepared
      cases prepared
  | ok found =>
      simp only [read] at prepared
      cases built : api.deployRequest command found.modelVersion with
      | error raised =>
          rw [built] at prepared
          cases prepared
      | ok request =>
          rw [built] at prepared
          cases prepared
          exact ⟨rfl, deployRequest_version built⟩

end Api

/-- The API admits keys of at most 200 characters. -/
def AdmittedKey (key : Option String) : Prop := ∀ text, key = some text → text.length ≤ 200

def AdmittedCommand : Command → Prop
  | .create _ key => AdmittedKey key
  | .get _ | .stop _ | .restart _ _ _ => True

/-- An import that was answered, with the id it drew. -/
structure ImportCall where
  command : CreateDeploymentDraft
  key : Option String
  drawn : Uuid
  answer : Except Raised DeploymentDraft

/-- A deploy: the thread that creates its deployment, and the draft it read. -/
structure DeployCall where
  index : Nat
  draft : DeploymentDraft

structure Desk (environment : Environment) (api : Api) where
  pool : Pool (api.service.system environment)
  store : DraftStore
  imports : List ImportCall
  deploys : List DeployCall
  saved : List Nat

namespace Desk

variable {environment : Environment} {api : Api}

def initial (environment : Environment) (api : Api) : Desk environment api :=
  ⟨Pool.initial State.initial, .empty, [], [], []⟩

/-- `import_draft`, answered in one transaction. -/
def answerImport (desk : Desk environment api) (command : CreateDeploymentDraft)
    (key : Option String) (id : Uuid) (now : Datetime) : Desk environment api :=
  let (answer, store) := api.importDraft desk.store command key id now
  { desk with store, imports := desk.imports ++ [⟨command, key, id, answer⟩] }

/-- `deploy_draft` calls the service. -/
def beginDeploy (desk : Desk environment api) (draft : DeploymentDraft)
    (request : CreateDeploymentRequest) : Desk environment api :=
  let thread : Thread (api.service.system environment) :=
    Thread.start (Command.create request (some (deployKey draft.id)))
  { desk with
    pool := { desk.pool with threads := desk.pool.threads ++ [thread] }
    deploys := desk.deploys ++ [⟨desk.pool.threads.length, draft⟩] }

/-- The service has answered a deploy. -/
def finishDeploy (desk : Desk environment api) (call : DeployCall) (deployment : Deployment) :
    Desk environment api :=
  { desk with
    store := desk.store.saveDraft (Api.startedDraft call.draft deployment)
    saved := desk.saved ++ [call.index] }

/-- One atomic step: of a request a client sent to the service, or of an import or
a deploy.  An endpoint that raises before it changes anything takes no step. -/
inductive Step : Desk environment api → Desk environment api → Prop where
  | served {desk : Desk environment api} {pool : Pool (api.service.system environment)}
      (step : Interaction.Step desk.pool pool)
      (admitted : ∀ thread, pool.threads[desk.pool.threads.length]? = some thread →
        AdmittedCommand thread.command) :
      Step desk { desk with pool }
  | imported {desk : Desk environment api} (command : CreateDeploymentDraft) (key : Option String)
      (id : Uuid) (now : Datetime) (admitted : AdmittedKey key)
      (fresh : ∀ call ∈ desk.imports, call.drawn ≠ id) :
      Step desk (desk.answerImport command key id now)
  | deploying {desk : Desk environment api} {draftId : Uuid} {command : DeployDraftRequest}
      {draft : DeploymentDraft} {request : CreateDeploymentRequest}
      (prepared : api.prepareDeploy desk.store draftId command = .ok (draft, request)) :
      Step desk (desk.beginDeploy draft request)
  | deployed {desk : Desk environment api} {call : DeployCall} {command : Command} {depth : Nat}
      {deployment : Deployment} (begun : call ∈ desk.deploys)
      (found : desk.pool.threads[call.index]? = some ⟨command, depth, .pure (.ok deployment)⟩)
      (unsaved : call.index ∉ desk.saved) :
      Step desk (desk.finishDeploy call deployment)

/-- Every desk some requests lead to. -/
def Reachable : Desk environment api → Prop :=
  Relation.ReflTransGen Step (initial environment api)

end Desk

end CyreneReactor.Drafts
