import CyreneReactor.Runtime.TaskScheduler

namespace CyreneReactor.Runtime

open Interaction

/-! `InferenceServer.stream_predict` and `async_stream_predict`.

Every call has one task for the scheduler and two queues that the task fills; the
future of the task is not looked at.  The caller takes what it finds in the
queues until it meets an end marker that the task put there.
-/

namespace InferenceServer

def sentinel : String := "__CY_LLM_STREAM_END__"

def progressSentinel : String := "__CY_LLM_PROGRESS_END__"

def loadingStart : String := "__CY_LLM_LOADING_START__"

def loadingPrefix : String := "__CY_LLM_LOADING__"

/-- `str.isspace`, of one character. -/
def isspace (char : Char) : Bool :=
  let code := char.toNat
  (9 ≤ code && code ≤ 13) || (28 ≤ code && code ≤ 32) || (8192 ≤ code && code ≤ 8202) ||
    [133, 160, 5760, 8232, 8233, 8239, 8287, 12288].contains code

/-- What a call raises before it submits anything. -/
def refusal (isShuttingDown : Bool) (prompt : String) : Option Thrown :=
  if isShuttingDown then some (RuntimeError "Server is shutting down.")
  else if prompt.toList.all isspace then some (ValueError "Prompt must not be empty.")
  else if 50000 < prompt.length then some (ValueError "Prompt too long (max 50000 chars).")
  else none

/-- The text of a progress item, for the items that are shown. -/
def loadingText (item : String) : Option String :=
  if loadingPrefix.toList.isPrefixOf item.toList then
    let shown := ((item.replace loadingPrefix "").toList.reverse.dropWhile (· == '_')).reverse
    some ("[模型加载] " ++ String.ofList shown ++ "\n")
  else none

def loadingAnnounced : String := "[模型加载] 开始加载模型，这可能需要几分钟，请耐心等待...\n"

/-- What `ensure_model` and the stream of the engine turn out to do. -/
inductive EngineRun where
  | loadFails (messages : List String) (thrown : Thrown)
  | infers (messages chunks : List String) (ending : Option Thrown)

/-- What a task puts where its caller looks. -/
inductive Post where
  | progress (item : String)
  | respond (item : String)
  | fail (thrown : Thrown)
deriving DecidableEq

/-- `response_queue`, `progress_queue` and `error_holder` of one call. -/
structure Channel where
  responses : List String
  progress : List String
  error : Option Thrown
deriving DecidableEq

def Channel.post (channel : Channel) : Post → Channel
  | .progress item => { channel with progress := channel.progress ++ [item] }
  | .respond item => { channel with responses := channel.responses ++ [item] }
  | .fail thrown => { channel with error := channel.error.or (some thrown) }

/-- The queues before the task is submitted. -/
def Channel.opened (modelLoaded : Bool) : Channel where
  responses := []
  progress := if modelLoaded then [] else [loadingStart]
  error := none

def progressEnd (modelLoaded : Bool) : List Post :=
  if modelLoaded then [] else [.progress progressSentinel]

def progressPosts (modelLoaded : Bool) (messages : List String) : List Post :=
  if modelLoaded then []
  else messages.map fun message => .progress (loadingPrefix ++ message ++ "__")

/-- The handler of the task: `except Exception`. -/
def caught (modelLoaded : Bool) (posts : List Post) (thrown : Thrown) : Job Post Unit :=
  if thrown.isException then
    ⟨posts ++ .fail thrown :: progressEnd modelLoaded ++ [.respond sentinel], .ok ()⟩
  else ⟨posts, .error thrown⟩

/-- `_task`. -/
def task (modelLoaded : Bool) : EngineRun → Job Post Unit
  | .loadFails messages thrown => caught modelLoaded (progressPosts modelLoaded messages) thrown
  | .infers messages chunks ending =>
      let posts := progressPosts modelLoaded messages ++ progressEnd modelLoaded ++
        chunks.map .respond
      match ending with
      | none => ⟨posts ++ [.respond sentinel], .ok ()⟩
      | some thrown => caught modelLoaded posts thrown

/-- Where the caller stands; `checking` is the second look at `error_holder`. -/
inductive Stage where
  | submitting
  | polling
  | checking (progressDone : Bool)
  | flushing
  | reading
  | ending
  | closed (raised : Option Thrown)
deriving DecidableEq

/-- The queue between the two generators of `async_stream_predict`. -/
structure Relay where
  queue : List String
  error : Option Thrown
  ended : Bool
  reading : Bool
  delivered : List String
  closed : Option (Option Thrown)
deriving DecidableEq

/-- A running `stream_predict`: what it yielded while the model loaded, and after. -/
structure Consumer where
  modelLoaded : Bool
  stage : Stage
  announced : List String
  delivered : List String
  relay : Option Relay
deriving DecidableEq

namespace Consumer

variable (consumer : Consumer)

/-- All that the generator yielded. -/
def outputs : List String := consumer.announced ++ consumer.delivered

def atStage (stage : Stage) : Consumer := { consumer with stage }

def relayed (item : String) : Option Relay :=
  consumer.relay.map fun relay => { relay with queue := relay.queue ++ [item] }

def announce (text : String) : Consumer :=
  { consumer with announced := consumer.announced ++ [text], relay := consumer.relayed text }

def showProgress (item : String) : Consumer :=
  match loadingText item with
  | some text => consumer.announce text
  | none => consumer

def deliver (item : String) : Consumer :=
  { consumer with delivered := consumer.delivered ++ [item], relay := consumer.relayed item }

variable {consumer} {stage : Stage} {item : String}

@[simp]
theorem atStage_modelLoaded : (consumer.atStage stage).modelLoaded = consumer.modelLoaded := rfl

@[simp]
theorem atStage_stage : (consumer.atStage stage).stage = stage := rfl

@[simp]
theorem atStage_delivered : (consumer.atStage stage).delivered = consumer.delivered := rfl

@[simp]
theorem announce_modelLoaded : (consumer.announce item).modelLoaded = consumer.modelLoaded := rfl

@[simp]
theorem announce_stage : (consumer.announce item).stage = consumer.stage := rfl

@[simp]
theorem announce_delivered : (consumer.announce item).delivered = consumer.delivered := rfl

@[simp]
theorem showProgress_modelLoaded :
    (consumer.showProgress item).modelLoaded = consumer.modelLoaded := by
  unfold showProgress
  split <;> rfl

@[simp]
theorem showProgress_stage : (consumer.showProgress item).stage = consumer.stage := by
  unfold showProgress
  split <;> rfl

@[simp]
theorem showProgress_delivered :
    (consumer.showProgress item).delivered = consumer.delivered := by
  unfold showProgress
  split <;> rfl

end Consumer

/-- The next step of a call, from where it stands. -/
def consume (submit : Submit) (consumer : Consumer) (channel : Channel) :
    Option (Consumer × Channel) :=
  match consumer.stage with
  | .submitting =>
      match submit with
      | .accepted =>
          if consumer.modelLoaded then some (consumer.atStage .reading, channel)
          else some ((consumer.announce loadingAnnounced).atStage .polling, channel)
      | .busy =>
          some (consumer.atStage
            (.closed (some (RuntimeError "Server is overloaded, please retry later."))), channel)
      | .refused =>
          some (consumer.atStage (.closed (some (RuntimeError "Scheduler already shutdown."))),
            channel)
      | _ => none
  | .polling =>
      match channel.progress with
      | [] =>
          some (consumer.atStage (if channel.error.isSome then .reading else .checking false),
            channel)
      | item :: rest =>
          if item = progressSentinel then
            some (consumer.atStage (.checking true), { channel with progress := rest })
          else some ((consumer.showProgress item).atStage (.checking false),
            { channel with progress := rest })
  | .checking progressDone =>
      some (consumer.atStage
        (if channel.error.isSome then .flushing else if progressDone then .reading else .polling),
        channel)
  | .flushing =>
      match channel.progress with
      | [] => some (consumer.atStage .reading, channel)
      | item :: rest =>
          if item = progressSentinel then
            some (consumer.atStage .reading, { channel with progress := rest })
          else some (consumer.showProgress item, { channel with progress := rest })
  | .reading =>
      match channel.responses with
      | [] => none
      | item :: rest =>
          if item = sentinel then
            some (consumer.atStage .ending, { channel with responses := rest })
          else some (consumer.deliver item, { channel with responses := rest })
  | .ending =>
      let raised := if channel.error.isSome then some (RuntimeError "Inference failed") else none
      some (consumer.atStage (.closed raised), channel)
  | .closed _ => none

namespace Relay

/-- `_sync_generate` once its generator has ended: the error, then the marker. -/
def finish (raised : Option Thrown) (relay : Relay) : Option Relay :=
  if relay.ended then none
  else
    match raised, relay.error with
    | some thrown, none => some { relay with error := some thrown }
    | _, _ => some { relay with queue := relay.queue ++ [sentinel], ended := true }

/-- The asynchronous generator; with an empty queue it sleeps and looks again. -/
def receive (relay : Relay) : Option Relay :=
  if relay.reading then
    match relay.queue with
    | [] => none
    | item :: rest =>
        if item = sentinel then some { relay with queue := rest, reading := false }
        else some { relay with queue := rest, delivered := relay.delivered ++ [item] }
  else
    match relay.closed with
    | none =>
        let raised := if relay.error.isSome then some (RuntimeError "Inference failed") else none
        some { relay with closed := some raised }
    | some _ => none

def opened : Relay where
  queue := []
  error := none
  ended := false
  reading := true
  delivered := []
  closed := none

end Relay

end InferenceServer

open InferenceServer

/-- The server with its scheduler.  `engineRuns` has, for every task that was begun,
what its engine turns out to do. -/
structure Serving where
  isShuttingDown : Bool
  scheduler : Scheduler Post Unit (List Channel)
  consumers : List Consumer
  engineRuns : List (Option EngineRun)

inductive ServingEvent where
  | predict (prompt : String) (modelLoaded : Bool) (priority : Int) (asynchronous : Bool)
  | shutdown
  | schedule (event : SchedulerEvent Post Unit)
  | begin (worker : Nat) (run : EngineRun)
  | consume (call : Nat)
  | relay (call : Nat)
  | receive (call : Nat)

/-- The scheduler of the server; the action of a task is about the queues of its call. -/
structure InferenceServer where
  maxWorkers : Nat
  queueSize : Int

namespace InferenceServer

variable (server : InferenceServer)

def taskScheduler : TaskScheduler Post (List Channel) where
  maxWorkers := server.maxWorkers
  queueSize := server.queueSize
  perform := fun call post channels => channels.modify call fun channel => channel.post post

/-- The steps of the scheduler that `stream_predict` leaves to it: the callers submit
through `predict` and forget the future, and a callable is always a `task`. -/
def scheduled : SchedulerEvent Post Unit → Bool
  | .submit _ | .cancel _ | .begin _ _ => false
  | _ => true

def stepPredict (state : Serving) (prompt : String) (modelLoaded : Bool) (priority : Int)
    (asynchronous : Bool) : Option Serving :=
  match refusal state.isShuttingDown prompt with
  | some _ => some state
  | none =>
      (server.taskScheduler.step state.scheduler (.submit priority)).map fun scheduler =>
        { state with
          scheduler := { scheduler with env := scheduler.env ++ [.opened modelLoaded] }
          consumers := state.consumers ++
            [⟨modelLoaded, .submitting, [], [], if asynchronous then some .opened else none⟩]
          engineRuns := state.engineRuns ++ [none] }

/-- A worker begins the task it took. -/
def stepBegin (state : Serving) (worker : Nat) (run : EngineRun) : Option Serving :=
  match state.scheduler.workers[worker]? with
  | some (.taken scheduled) =>
      match state.consumers[scheduled.future]?, state.scheduler.futures[scheduled.future]? with
      | some consumer, some .pending =>
          (server.taskScheduler.step state.scheduler
            (.begin worker (task consumer.modelLoaded run))).map fun scheduler =>
              { state with
                scheduler
                engineRuns := state.engineRuns.set scheduled.future (some run) }
      | _, _ => none
  | _ => none

def stepConsume (state : Serving) (call : Nat) : Option Serving :=
  match state.scheduler.submits[call]?, state.consumers[call]?, state.scheduler.env[call]? with
  | some submit, some consumer, some channel =>
      (consume submit consumer channel).map fun (consumer, channel) =>
        { state with
          scheduler := { state.scheduler with env := state.scheduler.env.set call channel }
          consumers := state.consumers.set call consumer }
  | _, _, _ => none

/-- A step of the relay of an asynchronous call. -/
def stepRelay (state : Serving) (call : Nat) (step : Consumer → Relay → Option Relay) :
    Option Serving :=
  match state.consumers[call]? with
  | some consumer =>
      match consumer.relay with
      | some relay =>
          (step consumer relay).map fun relay =>
            { state with consumers := state.consumers.set call { consumer with relay := some relay } }
      | none => none
  | none => none

def step (state : Serving) : ServingEvent → Option Serving
  | .predict prompt modelLoaded priority asynchronous =>
      server.stepPredict state prompt modelLoaded priority asynchronous
  | .shutdown => some { state with isShuttingDown := true }
  | .schedule event =>
      if scheduled event then
        (server.taskScheduler.step state.scheduler event).map fun scheduler =>
          { state with scheduler }
      else none
  | .begin worker run => server.stepBegin state worker run
  | .consume call => stepConsume state call
  | .relay call =>
      stepRelay state call fun consumer relay =>
        match consumer.stage with
        | .closed raised => relay.finish raised
        | _ => none
  | .receive call => stepRelay state call fun _ relay => relay.receive

def initial : Serving where
  isShuttingDown := false
  scheduler := server.taskScheduler.initial []
  consumers := []
  engineRuns := []

def machine : Machine Serving ServingEvent := ⟨server.step⟩

end InferenceServer

end CyreneReactor.Runtime
