import CyreneReactor.Engine
import CyreneReactor.Store

namespace CyreneReactor.Exchange

/-! `ExchangeHandoff.send` up to its call of the receiver: which endpoints it
hands off, and what it says about them.
-/

structure ExchangeHandoff where
  allowedBindingIds : List String
  sourceOrigin : String

structure SendToExchangeRequest where
  resourceVersion : Nat
  gatewayEndpointId : Uuid
  targetBindingId : String
  modelPattern : String
  priority : Nat

structure HandoffSource where
  resourceUri : String
  resourceVersion : Nat
  artifactDigest : String
  modelVersionId : Option String
deriving DecidableEq, Repr

/-- The body that is sent to the receiver. -/
structure HandoffPayload where
  endpointId : String
  modelPattern : String
  targetBindingId : String
  targetModel : String
  priority : Nat
  source : HandoffSource
deriving DecidableEq, Repr

inductive SendRaised where
  | raised (raised : Raised)
  | assertionError

/-- `_reject` -/
def reject (code detail : String) (status : Nat) : SendRaised :=
  .raised (.product
    { code := "REACTOR_" ++ code
      title := "Send to Exchange failed"
      detail := detail
      status := status
      retryable := status == 503 })

def endpointNotFound : SendRaised :=
  .raised (.product
    { code := "REACTOR_ENDPOINT_NOT_FOUND"
      title := "Endpoint not found"
      detail := "No Endpoint exists with the requested id."
      status := 404 })

variable (handoff : ExchangeHandoff)

/-- The payload for a READY endpoint of a deployment. -/
def payload (command : SendToExchangeRequest) (endpoint : Endpoint) (model : String)
    (deployment : Deployment) (artifact : ArtifactRef) : HandoffPayload where
  endpointId := command.gatewayEndpointId.str
  modelPattern := command.modelPattern
  targetBindingId := command.targetBindingId
  targetModel := model
  priority := command.priority
  source :=
    { resourceUri := handoff.sourceOrigin ++ "/api/v1/endpoints/" ++ endpoint.id.str
      resourceVersion := endpoint.resourceVersion
      artifactDigest := artifact.digest
      modelVersionId := deployment.modelVersion.map ModelVersionDocument.id }

/-- `send`, from the endpoint `get_endpoint` read to the request it posts. -/
def prepareSend (db : Database) (endpointId : Uuid) (command : SendToExchangeRequest) :
    Except SendRaised HandoffPayload :=
  if command.targetBindingId ∉ handoff.allowedBindingIds then
    .error (reject "RECEIVER_PERMISSION_DENIED" "Select an admitted provider binding." 403)
  else
    match db.getEndpoint endpointId with
    | none => .error endpointNotFound
    | some endpoint =>
        if endpoint.resourceVersion ≠ command.resourceVersion then
          .error (reject "SOURCE_VERSION_CONFLICT" "Refresh the Endpoint before sending." 409)
        else
          match endpoint.state, endpoint.model with
          | .ready, some model =>
              match db.getDeployment endpoint.deploymentId with
              | none => .error .assertionError
              | some deployment =>
                  match servingArtifact deployment with
                  | .error raised => .error (.raised raised)
                  | .ok artifact =>
                      .ok (payload handoff command endpoint model deployment artifact)
          | _, _ =>
              .error (reject "SOURCE_NOT_READY" "The Endpoint has no verified model service." 409)

/-- An endpoint that is handed off is READY. -/
theorem prepareSend_ready {db : Database} {endpointId : Uuid} {command : SendToExchangeRequest}
    {sent : HandoffPayload} (sends : prepareSend handoff db endpointId command = .ok sent) :
    ∃ endpoint, db.getEndpoint endpointId = some endpoint ∧ endpoint.state = .ready := by
  unfold prepareSend at sends
  split at sends
  · cases sends
  · split at sends
    · cases sends
    · rename_i endpoint found
      refine ⟨endpoint, found, ?_⟩
      split at sends
      · cases sends
      · split at sends
        · rename_i ready _
          exact ready
        · cases sends

end CyreneReactor.Exchange
