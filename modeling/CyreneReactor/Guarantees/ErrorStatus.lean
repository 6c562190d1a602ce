import CyreneReactor.Guarantees.Transparency
import CyreneReactor.Runtime.Servicer

namespace CyreneReactor.Runtime

open Interaction InferenceServer Servicer

/-! Which status a client gets for an error of the engine. -/

/-- The error a run of the engine ends with, and the chunks before it. -/
def InferenceServer.EngineRun.failure : EngineRun → Option (Thrown × List String)
  | .loadFails _ thrown => some (thrown, [])
  | .infers _ chunks (some thrown) => some (thrown, chunks)
  | .infers _ _ none => none

/-- A class of engine errors that the servicer has a handler for. -/
def Thrown.typed (thrown : Thrown) : Bool :=
  thrown.errorClass.isInstance .resourceError || thrown.errorClass.isInstance .modelError ||
    thrown.errorClass.isInstance .engineError

/-- The chunks of the responses, without the end marker of the protocol. -/
def Servicer.Handled.chunks {Number : Type} (handled : Handled Number) : List String :=
  (handled.responses.filter fun response => !response.endOfStream).map
    StreamPredictResponse.chunk

section Responses

theorem chunks_syncServed {Number : Type} (call : InferenceCall Number) (stream : ServerStream) :
    (syncServed call stream).chunks = stream.outputs := by
  have marked : ((if stream.raised.isNone then
      [(⟨"", stream.outputs.length, true⟩ : StreamPredictResponse)] else []).filter
        fun response => !response.endOfStream) = [] := by
    split <;> rfl
  have plain : (stream.outputs.mapIdx fun index chunk =>
      (⟨chunk, index, false⟩ : StreamPredictResponse)).filter
        (fun response => !response.endOfStream) =
      stream.outputs.mapIdx fun index chunk => ⟨chunk, index, false⟩ := by
    refine List.filter_eq_self.mpr fun response member => ?_
    obtain ⟨index, _, rfl⟩ := List.mem_mapIdx.mp member
    rfl
  simp only [Handled.chunks, syncServed, responses, List.filter_append, marked, plain,
    List.append_nil]
  refine List.ext_getElem? fun index => ?_
  simp only [List.getElem?_map, List.getElem?_mapIdx]
  cases stream.outputs[index]? <;> rfl

/-- Of the typed classes, only those of resources have the status of a `RuntimeError`. -/
theorem code_eq_iff {thrown : Thrown} (typed : thrown.typed = true) :
    StatusCode.resourceExhausted = (syncAbort thrown).code ↔
      thrown.errorClass.isInstance .resourceError = true := by
  obtain ⟨errorClass, message⟩ := thrown
  cases errorClass <;> simp_all [Thrown.typed, syncAbort, ErrorClass.isInstance]

theorem isException_of_typed {thrown : Thrown} (typed : thrown.typed = true) :
    thrown.isException = true := by
  obtain ⟨errorClass, message⟩ := thrown
  cases errorClass <;> first | rfl | simp [Thrown.typed, ErrorClass.isInstance] at typed

end Responses

section Failing

variable {run : EngineRun} {thrown : Thrown} {chunks : List String}

/-- The posts of a task whose engine fails: all chunks, then the error, then the end. -/
theorem actions_of_failure (modelLoaded : Bool) (failure : run.failure = some (thrown, chunks))
    (exceptional : thrown.isException = true) :
    ∃ before, (task modelLoaded run).actions =
        before ++ .fail thrown :: (progressEnd modelLoaded ++ [.respond sentinel]) ∧
      before.filterMap Post.response? = chunks := by
  cases run with
  | loadFails messages raised =>
      cases failure
      exact ⟨_, by simp [task, caught, exceptional], responses_progressPosts modelLoaded messages⟩
  | infers messages produced ending =>
      cases ending with
      | none => cases failure
      | some raised =>
          cases failure
          refine ⟨_, by
            simp only [task, caught, exceptional, if_true]
            exact List.append_assoc _ _ _, ?_⟩
          simp only [List.filterMap_append, responses_progressPosts, responses_progressEnd,
            responses_chunks, List.nil_append]

theorem ending_of_failure (failure : run.failure = some (thrown, chunks))
    (exceptional : thrown.isException = true) (modelLoaded : Bool) :
    (task modelLoaded run).ending = .ok () := by
  cases run with
  | loadFails messages raised =>
      cases failure
      simp [task, caught, exceptional]
  | infers messages produced ending =>
      cases ending with
      | none => cases failure
      | some raised =>
          cases failure
          simp [task, caught, exceptional]

/-- Once the end marker is posted, so is the error, if no chunk is the marker. -/
theorem failed_of_marked {before rest earlier : List Post}
    (prior : earlier <+: before ++ .fail thrown :: rest)
    (plain : sentinel ∉ before.filterMap Post.response?)
    (marked : sentinel ∈ earlier.filterMap Post.response?) :
    earlier.findSome? Post.failure? ≠ none := by
  have whole : before ++ [.fail thrown] <+: before ++ .fail thrown :: rest :=
    ⟨rest, by simp⟩
  rcases List.prefix_or_prefix_of_prefix prior whole with short | long
  · have member := (short.filterMap Post.response?).subset marked
    simp [Post.response?, plain] at member
  · intro absent
    have present : Post.fail thrown ∈ earlier := long.subset (by simp)
    have none := List.findSome?_eq_none_iff.mp absent _ present
    cases none

end Failing

section Served

variable {server : InferenceServer} {state : Serving} {call : Nat} {consumer : Consumer}
  {run : EngineRun} {thrown : Thrown} {chunks : List String} {raised : Option Thrown}

/-- A closed call whose engine failed and produced no chunk that reads like the end
marker has yielded every chunk and raised. -/
theorem delivered_of_failure (accounted : Accounted state)
    (caller : state.consumers[call]? = some consumer)
    (begun : state.engineRuns[call]? = some (some run))
    (failure : run.failure = some (thrown, chunks)) (exceptional : thrown.isException = true)
    (closed : consumer.stage = .closed raised) (plain : sentinel ∉ chunks) :
    consumer.delivered = chunks ∧ raised = some (RuntimeError "Inference failed") := by
  obtain ⟨channel, posts, _, told, follows⟩ := accounted.told_of_caller caller
  simp only [Follows, begun] at follows
  obtain ⟨remaining, actions, _, _⟩ := follows.ahead
  obtain ⟨before, shape, produced⟩ :=
    actions_of_failure consumer.modelLoaded failure exceptional
  have prior : posts <+: before ++ .fail thrown :: (progressEnd consumer.modelLoaded ++
      [.respond sentinel]) := ⟨remaining, actions.symm.trans shape⟩
  have ends := raised_of_begun accounted caller follows.accepted closed
  have marks : consumer.stage.marks = [sentinel] := by
    rw [closed]
    rcases ends with rfl | rfl <;> rfl
  have responses := told.responses
  rw [responses_posted, marks] at responses
  constructor
  · have received := prior.filterMap Post.response?
    rw [responses, List.filterMap_append, produced, List.filterMap_cons_none rfl,
      List.filterMap_append, responses_progressEnd] at received
    have whole : consumer.delivered ++ sentinel :: channel.responses <+: chunks ++ [sentinel] := by
      simpa [Post.response?] using received
    exact taken_eq told.clean plain whole
  · rcases ends with rfl | failed
    · obtain ⟨earlier, first, unfailed, marked⟩ := told.returned closed
      rw [error_posted] at unfailed
      rw [responses_posted] at marked
      exact absurd unfailed (failed_of_marked (first.trans prior) (produced ▸ plain) marked)
    · exact failed

end Served

/-- A call that ends after an error of its engine has the status of that class of
errors, with every chunk delivered, exactly when the class is about resources and no
chunk reads like the end marker. -/
theorem engine_error_reaches_client_iff {Number : Type} {server : InferenceServer}
    {state : Serving} {call : Nat} {consumer : Consumer} {run : EngineRun} {thrown : Thrown}
    {chunks : List String} (inferenceCall : InferenceCall Number)
    (runs : server.machine.Runs (fun _ _ => True) server.initial state)
    (caller : state.consumers[call]? = some consumer)
    (begun : state.engineRuns[call]? = some (some run))
    (failure : run.failure = some (thrown, chunks)) (typed : thrown.typed = true) :
    (∀ raised, consumer.stage = .closed raised →
      ∃ stream : ServerStream, stream.outputs = consumer.outputs ∧ stream.raised = raised ∧
        (((syncServed inferenceCall stream).status = (syncAbort thrown).code ∧
            chunks <:+ (syncServed inferenceCall stream).chunks) ↔
          thrown.errorClass.isInstance .resourceError = true ∧ sentinel ∉ chunks)) ∧
    ∃ later, server.machine.Runs (fun state event => state.ofCall call event = true) state later ∧
      later.Ended call := by
  have accounted := accounted_of_runs runs
  have clean := outputs_clean accounted caller
  have exceptional := isException_of_typed typed
  refine ⟨fun raised closed => ?_,
    ends_of_begun runs caller begun (ending_of_failure failure exceptional)⟩
  have caught : ∀ thrown, raised = some thrown → thrown.isException = true := by
    obtain ⟨_, _, _, _, follows⟩ := accounted.told_of_caller caller
    simp only [Follows, begun] at follows
    rcases raised_of_begun accounted caller follows.accepted closed with rfl | rfl
    · exact fun _ absent => by cases absent
    · exact fun _ same => by cases same; rfl
  refine ⟨⟨consumer.outputs, raised, clean, caught⟩, rfl, rfl, ?_⟩
  rw [chunks_syncServed]
  by_cases plain : sentinel ∈ chunks
  · refine iff_of_false (fun delivered => ?_) (fun without => without.2 plain)
    exact clean (delivered.2.subset plain)
  · obtain ⟨delivered, rfl⟩ :=
      delivered_of_failure accounted caller begun failure exceptional closed plain
    have suffix : chunks <:+ consumer.outputs := ⟨consumer.announced, by rw [← delivered]; rfl⟩
    have status : (syncServed inferenceCall ⟨consumer.outputs,
        some (RuntimeError "Inference failed"), clean, caught⟩).status =
          .resourceExhausted := rfl
    rw [status, code_eq_iff typed]
    exact ⟨fun both => ⟨both.1, plain⟩, fun both => ⟨both.1, suffix⟩⟩

/-- The engine yields a chunk and raises. -/
def engineRaises (thrown : Thrown) : List ServingEvent :=
  [.predict "hi" true 0 false, .schedule (.check 0), .schedule (.number 0 0), .schedule (.put 0),
    .schedule (.loop 0), .schedule (.take 0 0), .begin 0 (.infers [] ["ok"] (some thrown)),
    .schedule (.act 0), .schedule (.act 0), .schedule (.act 0), .schedule (.finish 0), .consume 0,
    .consume 0, .consume 0, .consume 0]

def callerOfRaised : Consumer :=
  ⟨true, .closed (some (RuntimeError "Inference failed")), [], ["ok"], none⟩

def engineRaised (thrown : Thrown) : Serving where
  isShuttingDown := false
  scheduler :=
    { queue := []
      stop := false
      sequence := 1
      futures := [.result ()]
      submits := [.accepted]
      workers := [.checking]
      started := [0]
      env := [⟨[], [], some thrown⟩] }
  consumers := [callerOfRaised]
  engineRuns := [some (.infers [] ["ok"] (some thrown))]

def callOfRaised : InferenceCall Nat := ⟨"m", "hi", "/m", none, "p", none, none, 0⟩

def streamOfRaised : ServerStream where
  outputs := ["ok"]
  raised := some (RuntimeError "Inference failed")
  clean := by simp [sentinel]
  caught := isException_RuntimeError _

/-- A model error reaches the client as an exhausted resource. -/
theorem engine_error_loses_its_class :
    (InferenceServer.machine ⟨1, 128⟩).Runs (fun _ _ => True) (InferenceServer.initial ⟨1, 128⟩)
        (engineRaised ⟨.modelError, "gone"⟩) ∧
      streamOfRaised.outputs = callerOfRaised.outputs ∧
      callerOfRaised.stage = .closed streamOfRaised.raised ∧
      (syncServed callOfRaised streamOfRaised).status = .resourceExhausted ∧
      (syncAbort ⟨.modelError, "gone"⟩).code = .notFound := by
  have played : (InferenceServer.machine ⟨1, 128⟩).play (fun _ _ => true)
      (InferenceServer.initial ⟨1, 128⟩) (engineRaises ⟨.modelError, "gone"⟩) =
        some (engineRaised ⟨.modelError, "gone"⟩) := rfl
  exact ⟨Machine.runs_of_play (fun _ _ _ => trivial) played, rfl, rfl, rfl, rfl⟩

theorem engine_error_reaches_client_resource :
    (∃ stream : ServerStream, stream.outputs = ["ok"] ∧
      stream.raised = some (RuntimeError "Inference failed") ∧
      (((syncServed callOfRaised stream).status = .resourceExhausted ∧
          ["ok"] <:+ (syncServed callOfRaised stream).chunks) ↔
        ErrorClass.gpuMemoryError.isInstance .resourceError = true ∧ sentinel ∉ ["ok"])) ∧
    ∃ later, (InferenceServer.machine ⟨1, 128⟩).Runs
        (fun state event => state.ofCall 0 event = true)
        (engineRaised ⟨.gpuMemoryError, "full"⟩) later ∧ later.Ended 0 := by
  have played : (InferenceServer.machine ⟨1, 128⟩).play (fun _ _ => true)
      (InferenceServer.initial ⟨1, 128⟩) (engineRaises ⟨.gpuMemoryError, "full"⟩) =
        some (engineRaised ⟨.gpuMemoryError, "full"⟩) := rfl
  have reaches := engine_error_reaches_client_iff callOfRaised
    (Machine.runs_of_play (fun _ _ _ => trivial) played)
    (show (engineRaised ⟨.gpuMemoryError, "full"⟩).consumers[0]? = some callerOfRaised from rfl)
    rfl rfl rfl
  exact ⟨reaches.1 _ rfl, reaches.2⟩

end CyreneReactor.Runtime
