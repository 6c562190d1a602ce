import Mathlib.Data.List.AList
import Mathlib.Data.List.Sort
import CyreneReactor.Diagnostics.Text
import CyreneReactor.Runtime.Exceptions

namespace CyreneReactor.Runtime.PluginAdapter

open Diagnostics

/-! `DirectPluginExecutionEngineAdapter`, and `ensure_model` over it.

An invocation may be answered in any way, and what becomes of it may depend on all that
went before.  The adapter passes on `received`, the invocations that reached the plugin so far.
-/

def executionEngineCapability : String := "execution.engine.v1"

def executionEngineInterfaceVersion : String := "1"

inductive Method where
  | loadModel
  | unloadModel
deriving DecidableEq, Repr

def Method.name : Method → String
  | .loadModel => "load_model"
  | .unloadModel => "unload_model"

def executionEngineTypeUrl (method : Method) (direction : String) : String :=
  "type.cyrene.io/" ++ executionEngineCapability ++ "." ++ method.name ++ "." ++ direction

structure ServingPortFailure where
  message : String
  status : Nat
  retryable : Bool
deriving DecidableEq, Repr

inductive Raised where
  | port (failure : ServingPortFailure)
  | thrown (thrown : Thrown)
deriving DecidableEq, Repr

/-- A Python object; one that is no JSON value has what `json.dumps` says of it. -/
inductive Argument where
  | json (value : JsonValue)
  | object (refusal : String)

abbrev Arguments := List (String × Argument)

def Arguments.get? (arguments : Arguments) (key : String) : Option Argument :=
  (arguments.find? fun argument => argument.1 == key).map Prod.snd

/-- The bytes of a payload, by what `json.loads` makes of them: a value, one of the errors
the adapter handles, or another one. -/
inductive Content where
  | json (value : JsonValue)
  | malformed (error : String)
  | refused (thrown : Thrown)

structure DirectPayload where
  typeUrl : String
  value : Content

structure Invocation where
  capability : String
  interfaceVersion : String
  method : Method
  request : DirectPayload
  deadlineSeconds : Argument

/-- What the SDK raises of its own. -/
inductive DirectPluginError where
  | invocationCancelled
  | deadlineExceeded (text : String)
  | protocolError (text : String)
  | failure (isCancelled : Bool) (code : Int) (domainCode message : String) (retryable : Bool)
      (text : String)
  | transportError (statusName message : String)
  | unspecified (text : String)

inductive Answer where
  | payload (response : DirectPayload)
  /-- Something that is no `DirectPayload`. -/
  | untyped
  | failed (error : DirectPluginError)
  /-- A `TypeError` or `ValueError`: the SDK rejected the request. -/
  | rejected (text : String)
  | crashed (text : String)

/-- The SDK and the plugin behind it: how the last of the invocations is answered, and whether
it reaches the plugin. -/
structure Plugin where
  answer : List Invocation → Answer
  reached : List Invocation → Bool

structure ExecutionEngineBinding where
  connectionRef : Option String
  providerId : Option String
  timeoutSeconds : Rat

structure EngineInfo where
  engine : String
  capability : String
  connectionRef : Option String
  isLoaded : Bool
  modelPath : Option String

structure Adapter where
  binding : ExecutionEngineBinding
  isLoaded : Bool
  modelPath : Option String
  engineInfo : EngineInfo

/-- `DirectPluginExecutionEngineAdapter.__init__` -/
def Adapter.new (binding : ExecutionEngineBinding) : Adapter where
  binding := binding
  isLoaded := false
  modelPath := none
  engineInfo :=
    { engine := match binding.providerId with
        | some provider => if provider = "" then "direct-plugin-engine" else provider
        | none => "direct-plugin-engine"
      capability := executionEngineCapability
      connectionRef := binding.connectionRef
      isLoaded := false
      modelPath := none }

def Argument.encode : Argument → Except String JsonValue
  | .json value => .ok value
  | .object refusal => .error refusal

/-- Deterministic: the keys are sorted. -/
def jsonBytes (payload : Arguments) : Except Raised Content :=
  let sorted := payload.insertionSort fun first second => first.1 ≤ second.1
  match sorted.mapM fun (key, argument) => (argument.encode).map (key, ·) with
  | .ok members => .ok (.json (.obj members))
  | .error refusal => .error (.port
      ⟨"DIRECT_PLUGIN_REQUEST_INVALID: payload is not JSON encodable: " ++ refusal, 500, false⟩)

def codeName (code : Int) : String :=
  match code with
  | 1 => "INVALID_REQUEST"
  | 2 => "METHOD_NOT_FOUND"
  | 3 => "CANCELLED"
  | 4 => "DEADLINE_EXCEEDED"
  | 5 => "EXECUTION_FAILED"
  | 6 => "UNAVAILABLE"
  | _ => "UNKNOWN_FAILURE"

def cancelledFailure : ServingPortFailure :=
  ⟨"DIRECT_PLUGIN_CANCELLED: direct Plugin invocation was cancelled", 499, false⟩

/-- Map SDK failures to the stable Reactor port error. -/
def translateDirectError : DirectPluginError → ServingPortFailure
  | .invocationCancelled => cancelledFailure
  | .deadlineExceeded text => ⟨"DIRECT_PLUGIN_DEADLINE_EXCEEDED: " ++ text, 504, true⟩
  | .protocolError text => ⟨"DIRECT_PLUGIN_PROTOCOL_ERROR: " ++ text, 502, false⟩
  | .failure isCancelled code domainCode message retryable text =>
      if isCancelled then cancelledFailure
      else if code = 4 then ⟨"DIRECT_PLUGIN_DEADLINE_EXCEEDED: " ++ text, 504, true⟩
      else
        let name := if domainCode = "" then codeName code else domainCode
        ⟨"DIRECT_PLUGIN_FAILURE[" ++ name ++ "]: " ++ message, if code = 6 then 503 else 502,
          retryable || code == 6⟩
  | .transportError statusName message =>
      let status := match statusName with
        | "CANCELLED" => 499
        | "DEADLINE_EXCEEDED" => 504
        | "UNAVAILABLE" => 503
        | _ => 503
      ⟨"DIRECT_PLUGIN_TRANSPORT_ERROR[" ++ statusName ++ "]: " ++ message, status,
        status == 503 || status == 504⟩
  | .unspecified text => ⟨"DIRECT_PLUGIN_ERROR: " ++ text, 503, true⟩

section Adapter

variable (printer : Printer)

def protocolError (message : String) : Raised :=
  .port ⟨"DIRECT_PLUGIN_PROTOCOL_ERROR: " ++ message, 502, false⟩

/-- The type of an answer is checked before it is decoded. -/
def readAnswer (method : Method) : Answer → Except Raised Members
  | .failed error => .error (.port (translateDirectError error))
  | .rejected text => .error (protocolError ("SDK invocation rejected the request: " ++ text))
  | .crashed text => .error (.port
      ⟨"DIRECT_PLUGIN_ERROR: direct Plugin invocation failed: " ++ text, 503, true⟩)
  | .untyped => .error (protocolError "response is not a typed DirectPayload")
  | .payload response =>
      let expected := executionEngineTypeUrl method "response"
      if response.typeUrl ≠ expected then
        .error (protocolError ("unexpected response type URL " ++
          printer.reprText response.typeUrl ++ "; expected " ++ printer.reprText expected))
      else
        match response.value with
        | .malformed error =>
            .error (protocolError ("response payload is not valid JSON: " ++ error))
        | .refused thrown => .error (.thrown thrown)
        | .json (.obj members) => .ok members
        | .json _ => .error (protocolError "response payload must be a JSON object")

namespace Adapter

variable (adapter : Adapter) (plugin : Plugin) (received : List Invocation)

/-- The invocation `_invoke` hands to the client. -/
def request (method : Method) (payload : Arguments) (deadlineSeconds : Option Argument) :
    Except Raised Invocation :=
  (jsonBytes payload).map fun value =>
    { capability := executionEngineCapability
      interfaceVersion := executionEngineInterfaceVersion
      method
      request := ⟨executionEngineTypeUrl method "request", value⟩
      deadlineSeconds := match deadlineSeconds with
        | some (.json .null) | none => .json (.float adapter.binding.timeoutSeconds)
        | some deadline => deadline }

def invoke (method : Method) (payload : Arguments) (deadlineSeconds : Option Argument) :
    Except Raised Members × List Invocation :=
  match adapter.request method payload deadlineSeconds with
  | .error raised => (.error raised, received)
  | .ok invocation =>
      let invocations := received ++ [invocation]
      (readAnswer printer method (plugin.answer invocations),
        if plugin.reached invocations then invocations else received)

def loadFields : List String :=
  ["adapter_name", "max_lora_rank", "max_model_len", "max_output_len", "quantization",
    "tensor_parallel_size", "gpu_memory_utilization", "enable_prefix_caching", "kv_cache_dtype"]

def loadPayload (modelPath : String) (adapterPath : Option String) (kwargs : Arguments) :
    Arguments :=
  [("model_path", .json (.str modelPath)),
      ("max_batch_size", (kwargs.get? "max_batch_size").getD (.json (.int 8)))] ++
    (match adapterPath with
    | some path => if path = "" then [] else [("adapter_path", .json (.str path))]
    | none => []) ++
    loadFields.filterMap fun field =>
      match kwargs.get? field with
      | some (.json .null) | none => none
      | some value => some (field, value)

/-- The names `load_model` has of its own: given again, the call is a `TypeError`. -/
def ownNames : List String := ["self", "model_path", "adapter_path"]

/-- Whether the answer says that the model was loaded. -/
def confirms (response : Members) : Bool :=
  match JsonValue.member? response "status", JsonValue.member? response "model_path" with
  | some (.str "LOADED"), some (.str _) => true
  | _, _ => false

def loadModel (modelPath : String) (adapterPath : Option String) (kwargs : Arguments) :
    Except Raised Adapter × List Invocation :=
  match kwargs.find? fun argument => ownNames.contains argument.1 with
  | some argument =>
      (.error (.thrown ⟨.exception,
        "DirectPluginExecutionEngineAdapter.load_model() got multiple values for argument '" ++
          argument.1 ++ "'"⟩), received)
  | none =>
      match adapter.invoke printer plugin received .loadModel
          (loadPayload modelPath adapterPath kwargs) (kwargs.get? "deadline_seconds") with
      | (.error raised, received) => (.error raised, received)
      | (.ok response, received) =>
          if confirms response then
            (.ok { adapter with
              isLoaded := true
              modelPath := some modelPath
              engineInfo :=
                { adapter.engineInfo with isLoaded := true, modelPath := some modelPath } }, received)
          else
            let detail := (JsonValue.member? response "detail").getD (.str "LOAD_FAILED")
            (.error (.port ⟨"Model load rejected by direct plugin: " ++ printer.str detail, 502,
              false⟩), received)

/-- Whether the answer says that the model was unloaded. -/
def confirmsUnload (response : Members) : Bool :=
  match JsonValue.member? response "status", JsonValue.member? response "engine" with
  | some (.str "UNLOADED"), some (.str _) => true
  | _, _ => false

def unloadModel : Except Raised Adapter × List Invocation :=
  if adapter.isLoaded then
    match adapter.invoke printer plugin received .unloadModel [] none with
    | (.error raised, received) => (.error raised, received)
    | (.ok response, received) =>
        if confirmsUnload response then
          (.ok { adapter with
            isLoaded := false
            modelPath := none
            engineInfo := { adapter.engineInfo with isLoaded := false } }, received)
        else (.error (protocolError "unload response is malformed"), received)
  else (.ok adapter, received)

end Adapter

end Adapter

/-- `ExecutionEngineCapabilityFactory` over the configured resolver; `connects` is what
`for_local_connection_ref` says of a reference it refuses. -/
def createEngine (binding : ExecutionEngineBinding) (connects : String → Option String)
    (providerId : String) : Except Raised Adapter :=
  match binding.connectionRef, binding.providerId with
  | none, _ | some "", _ => .error (.port
      ⟨"SERVING_BINDING_REQUIRED: direct plugin profile requires connection_ref", 503, false⟩)
  | some _, none | some _, some "" => .error (.port
      ⟨"SERVING_BINDING_REQUIRED: direct plugin profile requires provider_id", 503, false⟩)
  | some reference, some bound =>
      if providerId ≠ bound then
        .error (.port ⟨"SERVING_PROVIDER_MISMATCH: requested provider does not match the bound Plugin",
          409, false⟩)
      else
        match connects reference with
        | some refusal => .error (.port
            ⟨"SERVING_BINDING_INVALID: direct plugin connection_ref is invalid: " ++ refusal, 503,
              false⟩)
        | none => .ok (Adapter.new binding)

/-- What `ensure_model` reads of its server. -/
structure Server where
  isShuttingDown : Bool
  residency : AList fun _ : String => Adapter
  binding : ExecutionEngineBinding
  connects : String → Option String
  allowPlaceholderModel : Bool

structure ModelRequest where
  modelId : String
  modelPath : String
  adapterPath : Option String
  providerId : String
  engineKwargs : Arguments

/-- How `ensure_model` ended, the server it left, and what the plugin received. -/
structure Ensured where
  result : Except Raised Adapter
  server : Server
  received : List Invocation

namespace Server

variable (printer : Printer) (plugin : Plugin) (server : Server) (request : ModelRequest)
  (received : List Invocation)

/-- Where `ensure_model` ends before it loads anything. -/
def answered : Option (Except Raised Adapter) :=
  if server.isShuttingDown then some (.error (.thrown (RuntimeError "Server is shutting down.")))
  else
    match server.residency.lookup request.modelId with
    | some engine => some (.ok engine)
    | none =>
        if request.modelPath = "/path/to/model" ∧ server.allowPlaceholderModel = false then
          some (.error (.thrown (ValueError "Placeholder model path")))
        else none

/-- A load that raises is cleaned up through its engine; what the cleanup raises is only
logged. -/
def ensureModel : Ensured :=
  match server.answered request with
  | some result => ⟨result, server, received⟩
  | none =>
      match createEngine server.binding server.connects request.providerId with
      | .error raised => ⟨.error raised, server, received⟩
      | .ok engine =>
          match engine.loadModel printer plugin received request.modelPath request.adapterPath
              request.engineKwargs with
          | (.error raised, received) =>
              ⟨.error raised, server, (engine.unloadModel printer plugin received).2⟩
          | (.ok loaded, received) =>
              ⟨.ok loaded,
                { server with residency := server.residency.insert request.modelId loaded },
                received⟩

end Server

end CyreneReactor.Runtime.PluginAdapter
