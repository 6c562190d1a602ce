import CyreneReactor.Runtime.Stream

namespace CyreneReactor.Runtime

/-! The two gRPC servicers, up to the inference server they call.

`trace_id` only labels log lines and responses, and the timing of a response is
measured, so neither is here.
-/

inductive StatusCode where
  | ok
  | invalidArgument
  | notFound
  | resourceExhausted
  | internal
  | unauthenticated
deriving DecidableEq, Repr

/-- `context.abort`. -/
structure Abort where
  code : StatusCode
  details : String
deriving DecidableEq, Repr

namespace Auth

/-- What the environment says about tokens: `INTERNAL_TOKEN`, and whether a missing one
is let through. -/
structure Policy where
  internalToken : String
  insecureInternalTokenAllowed : Bool

def verifyToken (policy : Policy) (providedToken : Option String) : Except String Unit :=
  if policy.internalToken = "" then
    if policy.insecureInternalTokenAllowed then .ok () else .error "Internal token required"
  else
    match providedToken with
    | none | some "" => .error "Missing authorization token"
    | some token =>
        if token = "Bearer " ++ policy.internalToken then .ok ()
        else .error "Invalid internal token"

/-- `dict(invocation_metadata).get("authorization")`. -/
def extractTokenFromMetadata (metadata : List (String × String)) : Option String :=
  (metadata.reverse.find? fun entry => entry.1 == "authorization").map Prod.snd

/-- `verify_grpc_context`, for the metadata of the call. -/
def verifyGrpcContext (policy : Policy) (metadata : Option (List (String × String))) :
    Option Abort :=
  match verifyToken policy (extractTokenFromMetadata (metadata.getD [])) with
  | .ok () => none
  | .error message => some ⟨.unauthenticated, message⟩

end Auth

namespace Servicer

variable {Number : Type}

structure GenerationParameters (Number : Type) where
  maxNewTokens : Nat
  temperature : Number
  topP : Number
  repetitionPenalty : Number

structure StreamPredictRequest (Number : Type) where
  modelId : String
  prompt : String
  adapter : String
  priority : Int
  generation : GenerationParameters Number

structure ModelSpec (Number : Type) where
  modelPath : String
  adapterPath : Option String
  providerId : Option String
  quantization : Option String
  maxModelLen : Option Int
  tensorParallelSize : Option Int
  gpuMemoryUtilization : Option Number
  enablePrefixCaching : Option Bool
  kvCacheDtype : Option String

structure WorkerConfig (Number : Type) where
  providerId : String
  modelRegistry : List (String × ModelSpec Number)

/-- The value of a keyword argument. -/
inductive Kwarg (Number : Type) where
  | text (value : String)
  | integer (value : Int)
  | flag (value : Bool)
  | number (value : Number)

abbrev Kwargs (Number : Type) := List (String × Kwarg Number)

/-- The keyword arguments of `InferenceServer.stream_predict`. -/
structure InferenceCall (Number : Type) where
  modelId : String
  prompt : String
  modelPath : String
  adapterPath : Option String
  providerId : String
  generationKwargs : Option (Kwargs Number)
  engineKwargs : Option (Kwargs Number)
  priority : Int

/-- What a call of `stream_predict` yields and how it ends.  It never yields the text
of its own end marker, and what it raises is an `Exception`. -/
structure ServerStream where
  outputs : List String
  raised : Option Thrown
  clean : InferenceServer.sentinel ∉ outputs
  caught : ∀ thrown, raised = some thrown → thrown.isException = true

structure StreamPredictResponse where
  chunk : String
  index : Nat
  endOfStream : Bool
deriving DecidableEq, Repr

/-- What a servicer does with one call: the call of the server, the responses, the abort. -/
structure Handled (Number : Type) where
  call : Option (InferenceCall Number)
  responses : List StreamPredictResponse
  abort : Option Abort

def Handled.status (handled : Handled Number) : StatusCode :=
  match handled.abort with
  | none => .ok
  | some abort => abort.code

def promptMaxChars : Nat := 50000

/-- `value or None`, of a text. -/
def nonempty (text : String) : Option String := if text = "" then none else some text

/-- `kwargs or None`. -/
def orNone (kwargs : Kwargs Number) : Option (Kwargs Number) :=
  if kwargs.isEmpty then none else some kwargs

def generationKwargs (positive : Number → Bool) (parameters : GenerationParameters Number) :
    Kwargs Number :=
  (if 0 < parameters.maxNewTokens then
    [("max_new_tokens", .integer parameters.maxNewTokens)] else []) ++
  (if positive parameters.temperature then
    [("temperature", .number parameters.temperature)] else []) ++
  (if positive parameters.topP then [("top_p", .number parameters.topP)] else []) ++
  (if positive parameters.repetitionPenalty then
    [("repetition_penalty", .number parameters.repetitionPenalty)] else [])

/-- The engine settings that both servicers pass on when they are not `None`. -/
def engineSettings (spec : ModelSpec Number) : Kwargs Number :=
  (spec.maxModelLen.map fun value => ("max_model_len", .integer value)).toList ++
  (spec.tensorParallelSize.map fun value => ("tensor_parallel_size", .integer value)).toList ++
  (spec.enablePrefixCaching.map fun value => ("enable_prefix_caching", .flag value)).toList ++
  (spec.kvCacheDtype.map fun value => ("kv_cache_dtype", .text value)).toList ++
  (spec.gpuMemoryUtilization.map fun value => ("gpu_memory_utilization", .number value)).toList

def quantizationSetting (quantization : Option String) : Kwargs Number :=
  (quantization.map fun value => ("quantization", .text value)).toList

/-- The arguments of the call, given the engine settings. -/
def inferenceCall (positive : Number → Bool) (config : WorkerConfig Number)
    (request : StreamPredictRequest Number) (modelId : String) (spec : ModelSpec Number)
    (engineKwargs : Kwargs Number) : InferenceCall Number where
  modelId := modelId
  prompt := request.prompt
  modelPath := spec.modelPath
  adapterPath := (nonempty request.adapter).or spec.adapterPath
  providerId := (spec.providerId.bind nonempty).getD config.providerId
  generationKwargs := orNone (generationKwargs positive request.generation)
  engineKwargs := orNone engineKwargs
  priority := request.priority

def modelIdOf (request : StreamPredictRequest Number) : String :=
  (nonempty request.modelId).getD "default"

/-- `model_registry.get`. -/
def registered (config : WorkerConfig Number) (modelId : String) : Option (ModelSpec Number) :=
  (config.modelRegistry.find? fun entry => entry.1 == modelId).map Prod.snd

def notFound (modelId : String) : Abort :=
  ⟨.notFound, "Model '" ++ modelId ++ "' not found in registry"⟩

/-- One response for every chunk, and the end marker unless the stream raised. -/
def responses (stream : ServerStream) : List StreamPredictResponse :=
  stream.outputs.mapIdx (fun index chunk => ⟨chunk, index, false⟩) ++
    if stream.raised.isNone then [⟨"", stream.outputs.length, true⟩] else []

/-- The handlers of the synchronous servicer, in their order. -/
def syncAbort (thrown : Thrown) : Abort :=
  if thrown.errorClass.isInstance .gpuMemoryError then ⟨.resourceExhausted, thrown.message⟩
  else if thrown.errorClass.isInstance .resourceError then ⟨.resourceExhausted, thrown.message⟩
  else if thrown.errorClass.isInstance .modelError then ⟨.notFound, thrown.message⟩
  else if thrown.errorClass.isInstance .engineError then ⟨.internal, thrown.message⟩
  else if thrown.errorClass.isInstance .workerError then ⟨.internal, thrown.message⟩
  else if thrown.errorClass.isInstance .runtimeError then ⟨.resourceExhausted, thrown.message⟩
  else ⟨.internal, "Internal error: " ++ thrown.errorClass.name⟩

def asyncAbort (thrown : Thrown) : Abort := ⟨.internal, "Inference error: " ++ thrown.message⟩

/-- What the synchronous servicer makes of the stream of its call. -/
def syncServed (call : InferenceCall Number) (stream : ServerStream) : Handled Number :=
  ⟨some call, responses stream, stream.raised.map syncAbort⟩

def asyncServed (call : InferenceCall Number) (stream : ServerStream) : Handled Number :=
  ⟨some call, responses stream, stream.raised.map asyncAbort⟩

/-- `AiInferenceServicerImpl.StreamPredict`; `first` is the first request of the stream. -/
def syncStreamPredict (policy : Auth.Policy) (positive : Number → Bool)
    (config : WorkerConfig Number) (streamPredict : InferenceCall Number → ServerStream)
    (metadata : Option (List (String × String))) (first : Option (StreamPredictRequest Number)) :
    Handled Number :=
  match Auth.verifyGrpcContext policy metadata with
  | some abort => ⟨none, [], some abort⟩
  | none =>
      match first with
      | none => ⟨none, [], some ⟨.invalidArgument, "Empty request stream"⟩⟩
      | some request =>
          if promptMaxChars < request.prompt.length then
            ⟨none, [], some ⟨.invalidArgument, "Prompt too long (max 50000 chars)"⟩⟩
          else
            match registered config (modelIdOf request) with
            | none => ⟨none, [], some (notFound (modelIdOf request))⟩
            | some spec =>
                let call := inferenceCall positive config request (modelIdOf request) spec
                  (quantizationSetting (spec.quantization.bind nonempty) ++ engineSettings spec)
                syncServed call (streamPredict call)

/-- `async_stream_predict`: the items up to the end marker, and one exception for all. -/
def asyncStreamPredict (inner : ServerStream) : ServerStream where
  outputs := (inner.outputs ++ [InferenceServer.sentinel]).takeWhile (· ≠ InferenceServer.sentinel)
  raised := inner.raised.map fun _ => RuntimeError "Inference failed"
  clean := fun member => by simpa using List.all_eq_true.mp List.all_takeWhile _ member
  caught := fun thrown raised => by
    obtain ⟨_, _, rfl⟩ := Option.map_eq_some_iff.mp raised
    rfl

/-- `AsyncAiInferenceServicer.StreamPredict`. -/
def asyncServicerStreamPredict (positive : Number → Bool) (config : WorkerConfig Number)
    (streamPredict : InferenceCall Number → ServerStream)
    (first : Option (StreamPredictRequest Number)) : Handled Number :=
  match first with
  | none => ⟨none, [], some ⟨.invalidArgument, "Empty request stream"⟩⟩
  | some request =>
      match registered config (modelIdOf request) with
      | none => ⟨none, [], some (notFound (modelIdOf request))⟩
      | some spec =>
          let call := inferenceCall positive config request (modelIdOf request) spec
            (quantizationSetting spec.quantization ++ engineSettings spec)
          asyncServed call (asyncStreamPredict (streamPredict call))

end Servicer

end CyreneReactor.Runtime
