import CyreneReactor.Data.Url
import CyreneReactor.Diagnostics.Text
import CyreneReactor.Drafts.Api

namespace CyreneReactor.Remote

open Interaction Diagnostics

/-! `RemoteServingExecutionPort`: a serving binding over HTTP.

Every operation is a program of requests; what the remote host replies is left open.
-/

inductive Method where
  | get
  | post
deriving DecidableEq

/-- A request with its bearer token. -/
structure HttpRequest where
  method : Method
  url : String
  bearer : String
  payload : Option JsonValue

/-- What a request comes to; a reply that is no JSON has no body. -/
inductive HttpReply where
  | raised (kind : ExceptionKind)
  | answered (status : Nat) (body : Option JsonValue)

abbrev httpSignature : Signature := ⟨HttpRequest, fun _ => HttpReply⟩

abbrev Remoting := Fallible httpSignature Raised

def send (request : HttpRequest) : Remoting HttpReply :=
  Fallible.perform (show httpSignature.Op from request)

def valueError : Raised := .other .valueError

/-- `members[key]` -/
def subscript (members : Members) (key : String) : Except Raised JsonValue :=
  match JsonValue.member? members key with
  | some value => .ok value
  | none => .error (.other .keyError)

/-- `value == text` -/
def isText (value : JsonValue) (text : String) : Bool :=
  match value with
  | .str other => other == text
  | _ => false

/-- `members.get(key) is True` -/
def isTrue (members : Members) (key : String) : Bool :=
  match JsonValue.member? members key with
  | some (.bool value) => value
  | _ => false

/-- A field of a strict model that holds a text. -/
def textField : JsonValue → Except Raised String
  | .str text => .ok text
  | _ => .error valueError

/-- The number a value compares as. -/
def number? : JsonValue → Option Rat
  | .bool value => some (if value then 1 else 0)
  | .int value => some value
  | .float value => some value
  | _ => none

mutual

/-- `left == right` -/
def pyEq : JsonValue → JsonValue → Bool
  | .null, .null => true
  | .str left, .str right => left == right
  | .arr left, .arr right => pyEqItems left right
  | .obj left, .obj right => left.length == right.length && pyEqMembers left right
  | left, right =>
      match number? left, number? right with
      | some left, some right => left == right
      | _, _ => false

def pyEqItems : List JsonValue → List JsonValue → Bool
  | [], [] => true
  | left :: lefts, right :: rights => pyEq left right && pyEqItems lefts rights
  | _, _ => false

def pyEqMembers : List (String × JsonValue) → List (String × JsonValue) → Bool
  | [], _ => true
  | (key, left) :: rest, right =>
      (match JsonValue.member? right key with
        | some other => pyEq left other
        | none => false) && pyEqMembers rest right

end

/-- What the port takes from outside: `urlsplit`'s tables, `str`, the ModelVersion SDK
and the validation of an `ArtifactRef`.  A canonical document keeps the id it is read
with. -/
structure Contracts where
  rules : Url.Rules
  printer : Printer
  canonicalModelVersion : Members → Option ModelVersionDocument
  validateArtifactRef : JsonValue → Option ArtifactRef
  canonical_id : ∀ members document id, canonicalModelVersion members = some document →
    JsonValue.member? members "id" = some (.str id) → document.id = id

namespace Contracts

variable (contracts : Contracts)

def canonical (members : Members) : Except Raised ModelVersionDocument :=
  match contracts.canonicalModelVersion members with
  | some document => .ok document
  | none => .error valueError

def artifactRef (value : JsonValue) : Except Raised ArtifactRef :=
  match contracts.validateArtifactRef value with
  | some artifact => .ok artifact
  | none => .error valueError

/-- `model_version_artifact` -/
def modelVersionArtifact (document : ModelVersionDocument) : Except Raised ArtifactRef :=
  match Drafts.Api.servingArtifactValue document with
  | some (.obj members) => contracts.artifactRef (.obj members)
  | _ => .error valueError

def require (holds : Bool) : Except Raised Unit := if holds then .ok () else .error valueError

/-- `_validate_model_version_readback` -/
def validateModelVersionReadback (result : Members) (expected : ModelVersionDocument)
    (model : ArtifactRef) : Except Raised ModelVersionDocument :=
  match JsonValue.member? result "modelVersion" with
  | some (.obj returned) => do
      let canonical ← contracts.canonical returned
      let expectedCanonical ← contracts.canonical expected.members
      require (canonical.id == expectedCanonical.id)
      let expectedArtifact ← contracts.modelVersionArtifact expectedCanonical
      require (expectedArtifact == model)
      let artifact ← contracts.modelVersionArtifact canonical
      require (artifact == model)
      let returnedArtifact ←
        contracts.artifactRef ((JsonValue.member? result "modelArtifact").getD .null)
      require (returnedArtifact == model)
      pure canonical
  | _ => .error valueError

/-- `_canonical_expected_model_version` -/
def canonicalExpectedModelVersion (members : Members) (model : ArtifactRef) :
    Except Raised ModelVersionDocument := do
  let canonical ← contracts.canonical members
  let artifact ← contracts.modelVersionArtifact canonical
  require (artifact == model)
  pure canonical

/-- Which model the readback says is served, against the one that is asked for. -/
def identityMatches (digest : String) (version : Option ModelVersionDocument) (result : Members) :
    Except Raised Bool :=
  match version with
  | some version => do
      let value ← subscript result "modelArtifact"
      let returned ← contracts.artifactRef value
      let expected ← contracts.canonical version.members
      let artifact ← contracts.modelVersionArtifact expected
      require (artifact == returned)
      let _ ← contracts.validateModelVersionReadback result expected artifact
      pure (expected.id == digest)
  | none => do
      let value ← subscript result "modelArtifact"
      match value with
      | .obj artifact => do
          let named ← subscript artifact "digest"
          pure (isText named digest)
      | _ => .error (.other .typeError)

end Contracts

/-- The checks of the control URL. -/
def checkControlUrl (rules : Url.Rules) (controlUrl : String) : Except Raised Unit :=
  match Url.urlsplit rules controlUrl with
  | none => .error valueError
  | some parsed =>
      if parsed.username ≠ [] ∨ parsed.password ≠ [] ∨ parsed.query ≠ [] ∨ parsed.fragment ≠ [] then
        .error valueError
      else if parsed.scheme ≠ "https".toList ∧ ¬ (parsed.scheme = "http".toList ∧
          parsed.hostname ∈ ["127.0.0.1".toList, "localhost".toList, "::1".toList]) then
        .error valueError
      else .ok ()

structure RemoteServingExecutionPort where
  contracts : Contracts
  controlUrl : String
  token : String
  admitted : checkControlUrl contracts.rules controlUrl = .ok ()

/-- `__init__`, once the credential is read. -/
def RemoteServingExecutionPort.create (contracts : Contracts) (controlUrl : String)
    (credential : Except Raised String) : Except Raised RemoteServingExecutionPort :=
  match credential with
  | .error raised => .error raised
  | .ok token =>
      match admitted : checkControlUrl contracts.rules controlUrl with
      | .error raised => .error raised
      | .ok () => .ok ⟨contracts, controlUrl, token, admitted⟩

def unreachable : ServingEngineFailure where
  detail := "SERVING_BINDING_UNREACHABLE: refresh the node and retry"
  status := 503
  retryable := true

/-- What a reply with an error status raises. -/
def refused (printer : Printer) (status : Nat) (body : Members) : ServingEngineFailure :=
  let detail :=
    (if status = 401 ∨ status = 403 then "SERVING_BINDING_PERMISSION_DENIED"
      else printer.str ((JsonValue.member? body "code").getD (.str "SERVING_REQUEST_FAILED"))) ++
    ": " ++ printer.str ((JsonValue.member? body "detail").getD
      (.str "Refresh the binding and retry"))
  { detail
    status := if status = 401 ∨ status = 403 then 403 else status
    retryable := ((JsonValue.member? body "retryable").map truthy).getD (decide (500 ≤ status))
    detailEncodes := printer.encodes detail }

/-- What `request` makes of the reply. -/
def readReply (printer : Printer) : HttpReply → Except Raised Members
  | .raised kind =>
      if kind ∈ [.httpError, .valueError, .typeError] then .error (.serving unreachable)
      else .error (.other kind)
  | .answered status (some (.obj body)) =>
      if 400 ≤ status ∧ status < 600 then .error (.serving (refused printer status body))
      else .ok body
  | .answered _ _ => .error (.serving unreachable)

/-- The name under which a deployment's model is served. -/
def servedName (id : Uuid) : String := "reactor-" ++ id.str

def executionPath (id : Uuid) : String := "/executions/" ++ id.str

namespace RemoteServingExecutionPort

variable (port : RemoteServingExecutionPort)

/-- `self.binding.control_url.rstrip("/")` -/
def base : String := Url.rstrip port.controlUrl

def request (method : Method) (path : String) (payload : Option JsonValue) : Remoting Members := do
  let reply ← send ⟨method, port.base ++ path, port.token, payload⟩
  Fallible.ofExcept (readReply port.contracts.printer reply)

def prepare (id : Uuid) : EngineHandle where
  executionRef := id.str
  endpointUrl := port.base ++ ("/serving/" ++ id.str ++ "/v1")
  model := some (servedName id)
  modelVersionId := none

/-- `EngineObservation(ready=False, detail=result["detail"])` -/
def notReady (result : Members) : Except Raised EngineObservation := do
  let value ← subscript result "detail"
  let detail ← textField value
  pure ⟨false, detail⟩

/-- Whether the readback is of another model or another endpoint. -/
def isElsewhere (endpointUrl : String) (identity : Bool) (result : Members) : Except Raised Bool :=
  if isTrue result "ready" && identity then
    (subscript result "endpointUrl").map fun url => !isText url endpointUrl
  else .ok true

/-- Which model is probed, where the endpoint is at the binding's origin. -/
def toProbe (endpointUrl : String) (result : Members) :
    Except Raised (EngineObservation ⊕ JsonValue) :=
  match Url.urlsplit port.contracts.rules endpointUrl,
    Url.urlsplit port.contracts.rules port.controlUrl with
  | some endpoint, some control =>
      if endpoint.netloc ≠ control.netloc ∨ endpoint.scheme ≠ control.scheme then
        .ok (.inl ⟨false, "INFERENCE_ORIGIN_NOT_ADMITTED"⟩)
      else (subscript result "servedModel").map .inr
  | _, _ => .error valueError

/-- What the readback decides: an observation, or which model to probe. -/
def examine (endpointUrl digest : String) (version : Option ModelVersionDocument)
    (result : Members) : Except Raised (EngineObservation ⊕ JsonValue) := do
  let identity ← port.contracts.identityMatches digest version result
  let elsewhere ← isElsewhere endpointUrl identity result
  if elsewhere then (notReady result).map .inl else port.toProbe endpointUrl result

def probe (endpointUrl : String) (served : JsonValue) : HttpRequest where
  method := .post
  url := endpointUrl ++ "/chat/completions"
  bearer := port.token
  payload := some (.obj
    [("model", served),
      ("messages", .arr [.obj [("role", .str "user"), ("content", .str "Reply with one word: ready")]]),
      ("max_tokens", .int 8), ("temperature", .int 0)])

/-- `bool(body["choices"][0]["message"].get("content"))` -/
def hasContent (answer : Members) : Except Raised Bool := do
  let choices ← subscript answer "choices"
  match choices with
  | .arr (.obj choice :: _) => do
      let message ← subscript choice "message"
      match message with
      | .obj message => pure (truthy ((JsonValue.member? message "content").getD .null))
      | _ => .error (.other .attributeError)
  | .arr [] => .error (.other .indexError)
  | .obj _ => .error (.other .keyError)
  | .str "" => .error (.other .indexError)
  | _ => .error (.other .typeError)

/-- `body.get("model") == result["servedModel"] and bool(…)` -/
def isAnswered (served : JsonValue) (answer : Members) : Except Raised Bool :=
  if pyEq ((JsonValue.member? answer "model").getD .null) served then hasContent answer
  else .ok false

/-- What the answer to the probe shows. -/
def judge (served : JsonValue) : HttpReply → Except Raised EngineObservation
  | .raised kind => .error (.other kind)
  | .answered status body =>
      if 200 ≤ status ∧ status < 300 then
        match body with
        | some (.obj answer) =>
            (isAnswered served answer).map fun ready =>
              ⟨ready, if ready then "CONTROL_AND_INFERENCE_VERIFIED" else "MODEL_INFERENCE_EMPTY"⟩
        | some _ => .error (.other .attributeError)
        | none => .error valueError
      else .error (.other .httpError)

/-- The exceptions that `inspect` catches. -/
def caught : Raised → Bool
  | .serving _ => true
  | .other kind =>
      [.httpError, .keyError, .valueError, .indexError, .typeError, .attributeError].contains kind
  | .product _ => false

def recover : Except Raised EngineObservation → Except Raised EngineObservation
  | .ok observation => .ok observation
  | .error raised =>
      if caught raised then .ok ⟨false, "CONTROL_OR_INFERENCE_UNREACHABLE"⟩ else .error raised

/-- The body of `inspect`'s `try`. -/
def tryInspect (endpointUrl : String) (id : Uuid) (digest : String)
    (version : Option ModelVersionDocument) : Remoting EngineObservation := do
  let result ← port.request .get (executionPath id) none
  let verdict ← Fallible.ofExcept (port.examine endpointUrl digest version result)
  match verdict with
  | .inl observation => pure observation
  | .inr served => do
      let reply ← send (port.probe endpointUrl served)
      Fallible.ofExcept (judge served reply)

def inspect (executionRef endpointUrl : String) (id : Uuid) (digest : String)
    (version : Option ModelVersionDocument) : Remoting EngineObservation :=
  if executionRef ≠ id.str then pure ⟨false, "EXECUTION_IDENTITY_MISMATCH"⟩
  else ExceptT.mk do
    let outcome ← (port.tryInspect endpointUrl id digest version).run
    pure (recover outcome)

def nodeUnconfirmed : ServingEngineFailure where
  detail := "NODE_CONFIRMATION_REQUIRED: select a node from the binding"

def versionInvalid : ServingEngineFailure where
  detail := "MODEL_VERSION_INVALID: composed model does not match its base artifact"
  status := 422

/-- The version a start asks for, in canonical form. -/
def expectedVersion (model : ArtifactRef) (nodeRef : Option NodeRef)
    (version : Option ModelVersionDocument) :
    Except Raised (NodeRef × Option ModelVersionDocument) :=
  match nodeRef with
  | none => .error (.serving nodeUnconfirmed)
  | some nodeRef =>
      match version with
      | none => .ok (nodeRef, none)
      | some version =>
          match port.contracts.canonicalExpectedModelVersion version.members model with
          | .ok expected => .ok (nodeRef, some expected)
          | .error _ => .error (.serving versionInvalid)

def kindValue : ArtifactKind → String
  | .generic => "generic"
  | .model => "model"
  | .dataset => "dataset"
  | .checkpoint => "checkpoint"
  | .trainingSpec => "training_spec"
  | .metrics => "metrics"
  | .merged => "merged"
  | .quantized => "quantized"
  | .report => "report"

/-- `model.model_dump(mode="json")` -/
def dumpArtifact (model : ArtifactRef) : JsonValue :=
  .obj ([("uri", .str model.uri), ("digest", .str model.digest), ("size_bytes", .int model.sizeBytes),
      ("kind", .str (kindValue model.kind))] ++
    match model.manifestDigest with
    | some digest => [("manifest_digest", .str digest)]
    | none => [])

def startPayload (model : ArtifactRef) (nodeRef : NodeRef) (expected : Option ModelVersionDocument) :
    JsonValue :=
  .obj ([("modelArtifact", dumpArtifact model),
      ("nodeRef", .obj [("nodeId", .str nodeRef.nodeId), ("nodeEpoch", .int nodeRef.nodeEpoch)])] ++
    match expected with
    | some version => [("modelVersion", .obj version.members)]
    | none => [])

/-- What `start` raises where its request does. -/
def placed (id : Uuid) : Raised → Raised
  | .serving failure => .serving
      { detail := failure.detail
        executionRef := some id.str
        endpointUrl := some (port.prepare id).endpointUrl
        status := failure.status
        retryable := failure.retryable
        detailEncodes := failure.detailEncodes }
  | raised => raised

def modelNotReady (id : Uuid) (result : Members) : ServingEngineFailure :=
  let detail := "MODEL_NOT_READY: " ++ port.contracts.printer.str
    ((JsonValue.member? result "detail").getD (.str "incompatible host response"))
  { detail
    executionRef := some id.str
    endpointUrl := some (port.prepare id).endpointUrl
    status := 503
    retryable := true
    detailEncodes := port.contracts.printer.encodes detail }

def incompatible (id : Uuid) : ServingEngineFailure where
  detail := "SERVING_RESPONSE_INCOMPATIBLE: restore the binding before retrying"
  executionRef := some id.str
  endpointUrl := some (port.prepare id).endpointUrl
  status := 409

def identityMismatch (handle : EngineHandle) : ServingEngineFailure where
  detail := "MODEL_IDENTITY_MISMATCH: the binding returned an unexpected served model"
  executionRef := some handle.executionRef
  endpointUrl := some handle.endpointUrl
  status := 409
  referencesEncode := handle.referencesEncode

def dataPathUnreachable (handle : EngineHandle) : ServingEngineFailure where
  detail := "INFERENCE_DATA_PATH_UNREACHABLE: stop or repair binding reachability"
  executionRef := some handle.executionRef
  endpointUrl := some handle.endpointUrl
  status := 503
  retryable := true
  referencesEncode := handle.referencesEncode

/-- A field that holds a text or nothing. -/
def optionalTextField : JsonValue → Except Raised (Option String)
  | .null => .ok none
  | .str text => .ok (some text)
  | _ => .error valueError

/-- The id of the version that the reply of a start reads back. -/
def readVersionId (model : ArtifactRef) (expected : Option ModelVersionDocument)
    (result : Members) : Except Raised (Option String) :=
  match expected with
  | some version =>
      (port.contracts.validateModelVersionReadback result version model).map fun returned =>
        some returned.id
  | none => .ok none

/-- The handle the reply of a start describes.  A name that cannot be encoded is refused
before the handle is used. -/
def readHandle (id : Uuid) (model : ArtifactRef) (expected : Option ModelVersionDocument)
    (result : Members) : Except Raised EngineHandle := do
  let versionId ← port.readVersionId model expected result
  let url ← subscript result "endpointUrl"
  let served ← subscript result "servedModel"
  let endpointUrl ← textField url
  let name ← optionalTextField served
  pure
    { executionRef := id.str
      endpointUrl := endpointUrl
      model := name
      modelVersionId := versionId
      referencesEncode := port.contracts.printer.encodes endpointUrl }

/-- What `start` makes of the reply, before it inspects. -/
def acceptStart (id : Uuid) (model : ArtifactRef) (expected : Option ModelVersionDocument)
    (reply : HttpReply) : Except Raised EngineHandle :=
  match readReply port.contracts.printer reply with
  | .error raised => .error (port.placed id raised)
  | .ok result =>
      if isTrue result "ready" then
        match port.readHandle id model expected result with
        | .error _ => .error (.serving (port.incompatible id))
        | .ok handle =>
            if handle.model = some (servedName id) then .ok handle
            else .error (.serving (identityMismatch handle))
      else .error (.serving (port.modelNotReady id result))

/-- The digest that is asked for: the version's id where there is a version. -/
def expectedDigest (model : ArtifactRef) : Option ModelVersionDocument → String
  | some version => version.id
  | none => model.digest

def start (id : Uuid) (model : ArtifactRef) (nodeRef : Option NodeRef)
    (version : Option ModelVersionDocument) : Remoting EngineHandle := do
  let (nodeRef, expected) ← Fallible.ofExcept (port.expectedVersion model nodeRef version)
  let reply ← send ⟨.post, port.base ++ executionPath id, port.token,
    some (startPayload model nodeRef expected)⟩
  let handle ← Fallible.ofExcept (port.acceptStart id model expected reply)
  let observation ← port.inspect handle.executionRef handle.endpointUrl id
    (expectedDigest model expected) expected
  Fallible.ofExcept
    (if observation.ready then .ok handle else .error (.serving (dataPathUnreachable handle)))

def registryMismatch (printer : Printer) (detail executionRef endpointUrl : String) :
    ServingEngineFailure where
  detail := detail
  executionRef := some executionRef
  endpointUrl := some endpointUrl
  status := 409
  referencesEncode := printer.encodes endpointUrl

/-- `/models` lists the model. -/
def advertises (name : String) : JsonValue → Bool
  | .obj body =>
      match JsonValue.member? body "data" with
      | some (.arr items) => items.any fun item =>
          match item with
          | .obj item => (JsonValue.member? item "id").any fun value => isText value name
          | _ => false
      | _ => false
  | _ => false

/-- What the reply of the model registry raises. -/
def judgeRegistry (printer : Printer) (name executionRef endpointUrl : String) :
    HttpReply → Except Raised Unit
  | .raised .httpError => .error (.serving unavailable)
  | .raised kind =>
      if kind ∈ [.typeError, .valueError] then .error (.serving invalid) else .error (.other kind)
  | .answered status body =>
      if 200 ≤ status ∧ status < 300 then
        match body with
        | none => .error (.serving invalid)
        | some body =>
            if advertises name body then .ok ()
            else .error (.serving (registryMismatch printer
              "MODEL_IDENTITY_MISMATCH: /v1/models did not advertise the intended served model"
              executionRef endpointUrl))
      else .error (.serving unavailable)
where
  invalid : ServingEngineFailure :=
    registryMismatch printer
      "SERVING_RESPONSE_INCOMPATIBLE: serving model readback is not valid JSON"
      executionRef endpointUrl
  unavailable : ServingEngineFailure :=
    { detail := "INFERENCE_DATA_PATH_UNREACHABLE: serving model readback is unavailable"
      executionRef := some executionRef
      endpointUrl := some endpointUrl
      status := 503
      retryable := true
      referencesEncode := printer.encodes endpointUrl }

/-- The checks of `verify_served_model` before it asks. -/
def checkEndpoint (id : Uuid) (executionRef endpointUrl : String) (served : Option String) :
    Except Raised Unit :=
  if executionRef ≠ id.str ∨ served ≠ some (servedName id) then
    .error (.serving (registryMismatch port.contracts.printer
      "MODEL_IDENTITY_MISMATCH: the serving handle does not match the deployment"
      executionRef endpointUrl))
  else
    match Url.urlsplit port.contracts.rules endpointUrl,
      Url.urlsplit port.contracts.rules port.controlUrl with
    | some endpoint, some control =>
        if endpoint.scheme ≠ control.scheme ∨ endpoint.netloc ≠ control.netloc then
          .error (.serving (registryMismatch port.contracts.printer
            "INFERENCE_ORIGIN_NOT_ADMITTED: the serving endpoint is outside its binding"
            executionRef endpointUrl))
        else .ok ()
    | _, _ => .error valueError

def verifyServedModel (id : Uuid) (executionRef endpointUrl : String) (served : Option String) :
    Remoting Unit := do
  Fallible.ofExcept (port.checkEndpoint id executionRef endpointUrl served)
  let reply ← send ⟨.get, Url.rstrip endpointUrl ++ "/models", port.token, none⟩
  Fallible.ofExcept
    (judgeRegistry port.contracts.printer (servedName id) executionRef endpointUrl reply)

/-- The page of `diagnostics`, where its request returns or fails as expected. -/
def readPage : Except Raised Members → Except Raised (Option Members)
  | .error (.serving _) | .error (.other .valueError) => .ok none
  | .error raised => .error raised
  | .ok page =>
      match JsonValue.member? page "items" with
      | some (.arr _) => .ok (some page)
      | _ => .ok none

def diagnosticsPath (executionRef : String) (afterSequence limit : Int) : String :=
  "/executions/" ++ executionRef ++ "/diagnostics?afterSequence=" ++ toString afterSequence ++
    "&limit=" ++ toString limit

def diagnostics (executionRef : String) (afterSequence limit : Int) : Remoting (Option Members) :=
  ExceptT.mk do
    let outcome ← (port.request .get (diagnosticsPath executionRef afterSequence limit) none).run
    pure (readPage outcome)

/-- The version that a stop confirms before it stops, where there is one. -/
def confirmVersion (id : Uuid) (digest : String) : Option ModelVersionDocument → Remoting Unit
  | none => pure ()
  | some version => do
      let artifact ← Fallible.ofExcept (port.contracts.modelVersionArtifact version)
      let expected ←
        Fallible.ofExcept (port.contracts.canonicalExpectedModelVersion version.members artifact)
      let current ← port.request .get (executionPath id) none
      let model ← Fallible.ofExcept (port.contracts.modelVersionArtifact expected)
      let returned ←
        Fallible.ofExcept (port.contracts.validateModelVersionReadback current expected model)
      Fallible.ofExcept
        (if returned.id = digest then .ok ()
          else .error (.serving { detail := "MODEL_VERSION_IDENTITY_MISMATCH" }))

def stop (executionRef : String) (id : Uuid) (digest : String)
    (version : Option ModelVersionDocument) : Remoting EngineObservation :=
  if executionRef ≠ id.str then
    Fallible.ofExcept (.error (.serving { detail := "EXECUTION_IDENTITY_MISMATCH" }))
  else do
    port.confirmVersion id digest version
    let result ← port.request .post (executionPath id ++ "/stop") none
    Fallible.ofExcept
      (if isTrue result "released" then .ok ⟨false, "KERNEL_RESOURCES_RELEASED"⟩
        else .error (.serving { detail := "KERNEL_CLEANUP_INCOMPLETE" }))

end RemoteServingExecutionPort

end CyreneReactor.Remote
