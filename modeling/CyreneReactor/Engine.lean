import CyreneReactor.Domain

namespace CyreneReactor

/-! The Product's lifecycle port.  A serving engine is outside the Product: the
model fixes only what the service can ask it and what a reply looks like.
-/

inductive PortOperation where
  | start
  | inspect
  | stop
deriving DecidableEq, Repr

def PortOperation.name : PortOperation → String
  | .start => "start"
  | .inspect => "inspect"
  | .stop => "stop"

/-- What the service can learn about a binding without calling it: which methods
take the `model_version` keyword, and whether it has `verify_served_model`. -/
structure Engine where
  name : String
  startTakesModelVersion : Bool
  inspectTakesModelVersion : Bool
  stopTakesModelVersion : Bool
  verifiesServedModel : Bool
deriving DecidableEq, Repr

def Engine.takesModelVersion (engine : Engine) : PortOperation → Bool
  | .start => engine.startTakesModelVersion
  | .inspect => engine.inspectTakesModelVersion
  | .stop => engine.stopTakesModelVersion

inductive PortCall where
  | prepare (deploymentId : Uuid)
  | start (deploymentId : Uuid) (model : ArtifactRef) (nodeRef : Option NodeRef)
      (modelVersion : Option ModelVersionDocument)
  | verifyServedModel (deploymentId : Uuid) (executionRef endpointUrl : String)
      (servedModel : Option String)
  | inspect (executionRef endpointUrl : String) (deploymentId : Uuid) (modelDigest : String)
      (modelVersion : Option ModelVersionDocument)
  | stop (executionRef endpointUrl : String) (deploymentId : Uuid) (modelDigest : String)
      (modelVersion : Option ModelVersionDocument)

namespace PortCall

def Value : PortCall → Type
  | prepare _ => Option EngineHandle
  | start _ _ _ _ => EngineHandle
  | verifyServedModel _ _ _ _ => Unit
  | inspect _ _ _ _ _ => EngineObservation
  | stop _ _ _ _ _ => EngineObservation

abbrev Answer (call : PortCall) : Type := Except Raised call.Value

def deploymentId : PortCall → Uuid
  | prepare id | start id _ _ _ | verifyServedModel id _ _ _ | inspect _ _ id _ _
  | stop _ _ id _ _ => id

end PortCall

/-- `_require_model_version_keyword` -/
def requireModelVersionKeyword (engine : Engine) (operation : PortOperation) :
    Except Raised Unit :=
  if engine.takesModelVersion operation then .ok ()
  else
    .error (.serving
      { detail := "COMPOSED_MODEL_BACKEND_UNSUPPORTED: engine " ++ operation.name ++
          " must accept model_version"
        status := 422 })

/-- `serving_artifact` -/
def servingArtifact (deployment : Deployment) : Except Raised ArtifactRef :=
  match deployment.modelArtifact with
  | none =>
      .error (.product
        { code := "REACTOR_MODEL_VERSION_INVALID"
          title := "Model artifact projection missing"
          detail :=
            "A deployment must retain the full model or composed base artifact projection."
          status := 422 })
  | some artifact => .ok artifact

/-- `serving_identity` -/
def servingIdentity (deployment : Deployment) : Except Raised String :=
  match deployment.composition, deployment.modelVersion with
  | .basePlusLora, some version => .ok version.id
  | _, _ => (servingArtifact deployment).map ArtifactRef.digest

/-- `runtime_model_version` -/
def runtimeModelVersion (deployment : Deployment) : Option ModelVersionDocument :=
  match deployment.composition with
  | .basePlusLora => deployment.modelVersion
  | .fullModel => none

/-- A deployment that passed validation has its artifact. -/
theorem servingArtifact_validated (deployment : Deployment) :
    ∃ artifact, servingArtifact deployment = .ok artifact := by
  obtain ⟨artifact, present⟩ := Option.isSome_iff_exists.mp deployment.validated.1
  exact ⟨artifact, by simp only [servingArtifact, present]⟩

/-- The composed serving path is exactly the one with a runtime version. -/
theorem servingIdentity_composed {deployment : Deployment} {version : ModelVersionDocument}
    (composed : runtimeModelVersion deployment = some version) :
    servingIdentity deployment = .ok version.id := by
  unfold runtimeModelVersion at composed
  split at composed
  · rename_i lora
    simp only [servingIdentity, lora, composed]
  · cases composed

theorem servingIdentity_full {deployment : Deployment} {artifact : ArtifactRef}
    (full : runtimeModelVersion deployment = none)
    (placed : servingArtifact deployment = .ok artifact) :
    servingIdentity deployment = .ok artifact.digest := by
  unfold runtimeModelVersion at full
  unfold servingIdentity
  split
  · rename_i version lora stored
    simp only [lora, stored] at full
    cases full
  · rw [placed]
    rfl

end CyreneReactor
