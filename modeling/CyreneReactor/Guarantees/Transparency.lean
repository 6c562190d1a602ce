import CyreneReactor.Guarantees.Streaming
import CyreneReactor.Runtime.Relaying

namespace CyreneReactor.Runtime

open Interaction InferenceServer

/-! Whether a stream delivers what its engine yields, whatever the chunks read like. -/

/-- The steps of one call: of the worker that runs its task, of its caller and of its relay. -/
def Serving.ofCall (call : Nat) (state : Serving) : ServingEvent → Bool
  | .schedule (.act worker) => (state.scheduler.workers[worker]?).any (Worker.runs call)
  | .consume other | .relay other | .receive other => other == call
  | _ => false

/-- Both generators of the call have ended. -/
def Serving.Ended (state : Serving) (call : Nat) : Prop :=
  ∃ consumer, state.consumers[call]? = some consumer ∧
    (∃ raised, consumer.stage = .closed raised) ∧
    ∀ relay, consumer.relay = some relay → relay.closed ≠ none

/-- A generator yielded the lines about the loading of the model, then the chunks, and ended. -/
structure InferenceServer.Consumer.Transparent (consumer : Consumer) (outputs : List String)
    (raised : Option Thrown) (chunks : List String) : Prop where
  lines : ∀ line ∈ consumer.announced, isLoadProgress line = true
  outputs : outputs = consumer.announced ++ chunks
  raised : raised = none

section Ending

variable {server : InferenceServer} {state : Serving} {call : Nat} {consumer : Consumer}
  {channel : Channel} {run : EngineRun}

/-- How far a caller is from the end of its generator. -/
def InferenceServer.Consumer.weight (consumer : Consumer) (channel : Channel) : Nat :=
  let stage := match consumer.stage with
    | .submitting => 5
    | .checking _ => 4
    | .polling | .flushing => 3
    | .reading => 2
    | .ending => 1
    | .closed _ => 0
  stage + 3 * (channel.progress.length + channel.responses.length)

def InferenceServer.Relay.weight (relay : Relay) : Nat :=
  relay.queue.length + (if relay.ended then 0 else 3) + (if relay.error.isSome then 0 else 1) +
    (if relay.reading then 1 else 0) + (if relay.closed.isSome then 0 else 1)

theorem weight_of_consumed {after : Consumer} {rest : Channel}
    (consumed : consume .accepted consumer channel = some (after, rest))
    (waits : consumer.stage = .polling → channel.progress ≠ []) :
    after.weight rest < consumer.weight channel := by
  cases consumed_of_consume consumed with
  | reject _ rejected => simp at rejected
  | idle stage empty => exact absurd empty (waits stage)
  | giveUp stage empty => exact absurd empty (waits stage)
  | loaded stage front | loading stage front | flush stage front =>
      simp [Consumer.weight, stage, front] <;> omega
  | @check progressDone stage => cases progressDone <;> simp [Consumer.weight, stage]
  | flushed stage front =>
      rcases front with same | same
      · simp [Consumer.weight, stage, same]
      · simp [Consumer.weight, stage, same]
        omega
  | deliver stage front | finish stage front =>
      simp [Consumer.weight, Consumer.deliver, stage, front] <;> omega
  | start stage | await stage | checkFailed stage | close stage | closeFailed stage =>
      simp [Consumer.weight, stage]

/-- A caller that was told everything goes on until its generator ends. -/
theorem consumes_of_told (told : Told consumer channel (task consumer.modelLoaded run).actions)
    (ending : (task consumer.modelLoaded run).ending = .ok ())
    (unclosed : ∀ raised, consumer.stage ≠ .closed raised) :
    ∃ after rest, consume .accepted consumer channel = some (after, rest) := by
  unfold consume
  cases stage : consumer.stage with
  | submitting => cases loaded : consumer.modelLoaded <;> simp
  | polling =>
      cases queue : channel.progress with
      | nil => exact absurd queue (told.progress_ne_nil ending stage)
      | cons item rest => by_cases marker : item = progressSentinel <;> simp [marker]
  | checking progressDone => simp
  | flushing =>
      cases queue : channel.progress with
      | nil => simp
      | cons item rest => by_cases marker : item = progressSentinel <;> simp [marker]
  | reading =>
      cases queue : channel.responses with
      | nil => exact absurd queue (told.responses_ne_nil ending stage)
      | cons item rest => by_cases marker : item = sentinel <;> simp [marker]
  | ending => simp
  | closed raised => exact absurd stage (unclosed raised)

/-- The worker of a call makes all its posts. -/
theorem posts_all {place : Nat} {scheduled : ScheduledTask} {remaining : List Post}
    {ending : Except Thrown Unit}
    (here : state.scheduler.workers[place]? = some (.running scheduled ⟨remaining, ending⟩)) :
    ∃ later, server.machine.Runs (fun state event => state.ofCall scheduled.future event = true)
        state later ∧
      later.scheduler.workers[place]? = some (.running scheduled ⟨[], ending⟩) ∧
      later.consumers = state.consumers ∧ later.engineRuns = state.engineRuns := by
  induction remaining generalizing state with
  | nil => exact ⟨state, .refl, here, rfl, rfl⟩
  | cons action rest ih =>
      have bound := (List.getElem?_eq_some_iff.mp here).1
      let next : Serving := { state with
        scheduler := { state.scheduler.setWorker place (.running scheduled ⟨rest, ending⟩) with
          env := server.taskScheduler.perform scheduled.future action state.scheduler.env } }
      have stepped : server.machine.step state (.schedule (.act place)) = some next := by
        simp [machine, step, InferenceServer.scheduled, TaskScheduler.step,
          TaskScheduler.stepLoop, here, next]
      have there : next.scheduler.workers[place]? = some (.running scheduled ⟨rest, ending⟩) := by
        simp [next, Scheduler.setWorker, bound]
      obtain ⟨later, runs, ended, consumers, engineRuns⟩ := ih there
      refine ⟨later, Relation.ReflTransGen.head ⟨_, ?_, stepped⟩ runs, ended, consumers, engineRuns⟩
      simp [Serving.ofCall, here]

/-- From every state of a call whose task ends well, its worker can tell it everything. -/
theorem told_of_begun (runs : server.machine.Runs (fun _ _ => True) server.initial state)
    (caller : state.consumers[call]? = some consumer)
    (begun : state.engineRuns[call]? = some (some run))
    (ending : ∀ modelLoaded, (task modelLoaded run).ending = .ok ()) :
    ∃ later channel, server.machine.Runs (fun state event => state.ofCall call event = true)
        state later ∧
      later.consumers[call]? = some consumer ∧ later.scheduler.env[call]? = some channel ∧
      later.scheduler.submits[call]? = some .accepted ∧
      Told consumer channel (task consumer.modelLoaded run).actions := by
  obtain ⟨accounted, orderly⟩ := orderly_of_runs runs
  obtain ⟨channel, posts, queues, told, follows⟩ := accounted.told_of_caller caller
  simp only [Follows, begun] at follows
  obtain ⟨remaining, actions, running, resolved⟩ := follows.ahead
  have bound : call < state.scheduler.futures.length := by
    have inside := (List.getElem?_eq_some_iff.mp caller).1
    rw [accounted.ledger.aligned, ← accounted.callers]
    exact inside
  have future := List.getElem?_eq_getElem bound
  cases settled : state.scheduler.futures[call].resolved with
  | true =>
      obtain ⟨rfl, _⟩ := resolved _ future settled
      rw [List.append_nil] at actions
      exact ⟨state, channel, .refl, caller, queues, follows.accepted, actions ▸ told⟩
  | false =>
      have isRunning : state.scheduler.futures[call]? = some .running := by
        cases which : state.scheduler.futures[call] with
        | pending => exact absurd (which ▸ future) follows.started
        | running => rw [future, which]
        | cancelled | result | exception => simp [which, FutureState.resolved] at settled
      obtain ⟨place, scheduled, job, here, same⟩ :
          ∃ (place : Nat) (scheduled : ScheduledTask) (job : Job Post Unit),
            state.scheduler.workers[place]? = some (.running scheduled job) ∧
              scheduled.future = call := by
        have balanced := accounted.ledger.balanced call
        have entry : (state.scheduler.entry call).future = some .running := isRunning
        simp only [Entry.Balanced, entry] at balanced
        have one : 0 < (state.scheduler.entry call).run := by omega
        obtain ⟨worker, member, runsIt⟩ := List.countP_pos_iff.mp one
        obtain ⟨place, found⟩ := List.getElem?_of_mem member
        cases worker with
        | running scheduled job => exact ⟨place, scheduled, job, found, beq_iff_eq.mp runsIt⟩
        | died scheduled =>
            obtain ⟨other, modelLoaded, thrown, known, raises⟩ := orderly.deaths place scheduled found
            rw [beq_iff_eq.mp runsIt, begun, Option.some.injEq, Option.some.injEq] at known
            subst known
            cases (ending modelLoaded).symm.trans raises
        | checking | polling | taken | draining | getting | drained | exited => cases runsIt
      subst same
      obtain ⟨later, goes, ended, consumers, engineRuns⟩ := posts_all here
      have reached : server.machine.Runs (fun _ _ => True) server.initial later :=
        runs.trans (goes.mono fun _ _ _ => trivial)
      have callerLater := consumers ▸ caller
      obtain ⟨channel, posts, queues, told, follows⟩ :=
        (accounted_of_runs reached).told_of_caller callerLater
      simp only [Follows, engineRuns, begun] at follows
      obtain ⟨remaining, actions, running, _⟩ := follows.ahead
      have final := running place scheduled _ ended rfl
      simp only [Job.mk.injEq] at final
      rw [← final.1, List.append_nil] at actions
      exact ⟨later, channel, goes, callerLater, queues, follows.accepted, actions ▸ told⟩

/-- A caller that was told everything can end its generator. -/
theorem closes_of_told (runs : server.machine.Runs (fun _ _ => True) server.initial state)
    (caller : state.consumers[call]? = some consumer)
    (queues : state.scheduler.env[call]? = some channel)
    (accepted : state.scheduler.submits[call]? = some .accepted)
    (told : Told consumer channel (task consumer.modelLoaded run).actions)
    (ending : ∀ modelLoaded, (task modelLoaded run).ending = .ok ()) :
    ∃ later, server.machine.Runs (fun state event => state.ofCall call event = true) state later ∧
      server.machine.Runs (fun _ _ => True) server.initial later ∧
      ∃ consumer raised, later.consumers[call]? = some consumer ∧ consumer.stage = .closed raised := by
  refine Machine.reaches (fun bound state =>
    server.machine.Runs (fun _ _ => True) server.initial state ∧ ∃ consumer channel,
      state.consumers[call]? = some consumer ∧ state.scheduler.env[call]? = some channel ∧
      state.scheduler.submits[call]? = some .accepted ∧
      Told consumer channel (task consumer.modelLoaded run).actions ∧
      consumer.weight channel = bound) ?_ ⟨runs, consumer, channel, caller, queues, accepted, told, rfl⟩
  rintro bound state ⟨runs, consumer, channel, caller, queues, accepted, told, rfl⟩
  by_cases closed : ∃ raised, consumer.stage = .closed raised
  · obtain ⟨raised, stage⟩ := closed
    exact .inl ⟨runs, consumer, raised, caller, stage⟩
  · obtain ⟨after, rest, consumed⟩ := consumes_of_told told (ending _)
      fun raised stage => closed ⟨raised, stage⟩
    have stepped : server.machine.step state (.consume call) = some { state with
        scheduler := { state.scheduler with env := state.scheduler.env.set call rest }
        consumers := state.consumers.set call after } := by
      simp [machine, step, stepConsume, accepted, caller, queues, consumed]
    refine .inr ⟨.consume call, _, _, ?_, by simp [Serving.ofCall], stepped,
      runs.tail ⟨_, trivial, stepped⟩, after, rest, ?_, ?_, accepted, ?_, rfl⟩
    · exact weight_of_consumed consumed (told.progress_ne_nil (ending _))
    · rw [List.getElem?_set_self (List.getElem?_eq_some_iff.mp caller).1]
    · rw [List.getElem?_set_self (List.getElem?_eq_some_iff.mp queues).1]
    · rw [(kept_of_consume consumed).1]
      exact told.consume consumed

/-- A relay that is behind an ended generator goes on until it has ended too. -/
theorem relays_of_carries {relay : Relay} {raised : Option Thrown}
    (carries : relay.Carries consumer) (closed : consumer.stage = .closed raised)
    (unclosed : relay.closed = none) :
    (∃ after, relay.finish raised = some after ∧ after.weight < relay.weight) ∨
      ∃ after, relay.receive = some after ∧ after.weight < relay.weight := by
  cases carries with
  | @flowing queue delivered error =>
      left
      cases raised with
      | none =>
          exact ⟨_, rfl, by simp [Relay.weight]⟩
      | some thrown =>
          cases error with
          | none => exact ⟨_, rfl, by simp [Relay.weight]⟩
          | some other => exact ⟨_, rfl, by simp [Relay.weight]⟩
  | @ended queue delivered error same marked =>
      right
      cases queue with
      | nil => cases marked
      | cons item rest =>
          by_cases marker : item = sentinel
          · refine ⟨⟨rest, error, true, false, delivered, none⟩, by simp [Relay.receive, marker], ?_⟩
            simp only [Relay.weight, List.length_cons, Bool.false_eq_true, if_true, if_false]
            omega
          · refine ⟨⟨rest, error, true, true, delivered ++ [item], none⟩,
              by simp [Relay.receive, marker], ?_⟩
            simp [Relay.weight]
  | read =>
      exact .inr ⟨_, rfl, by simp [Relay.weight]⟩
  | closed => cases unclosed

/-- Once the first generator has ended, the second one can end. -/
theorem ends_of_closed (runs : server.machine.Runs (fun _ _ => True) server.initial state)
    {raised : Option Thrown} (caller : state.consumers[call]? = some consumer)
    (closed : consumer.stage = .closed raised) :
    ∃ later, server.machine.Runs (fun state event => state.ofCall call event = true) state later ∧
      later.Ended call := by
  refine Machine.reaches (fun bound state =>
    server.machine.Runs (fun _ _ => True) server.initial state ∧ ∃ consumer raised,
      state.consumers[call]? = some consumer ∧ consumer.stage = .closed raised ∧
      (consumer.relay.map Relay.weight).getD 0 = bound) ?_
    ⟨runs, consumer, raised, caller, closed, rfl⟩
  rintro bound state ⟨runs, consumer, raised, caller, closed, rfl⟩
  have bounded := (List.getElem?_eq_some_iff.mp caller).1
  cases own : consumer.relay with
  | none => exact .inl ⟨consumer, caller, ⟨raised, closed⟩, by simp [own]⟩
  | some relay =>
      cases unclosed : relay.closed with
      | some ended => exact .inl ⟨consumer, caller, ⟨raised, closed⟩, by simp [own, unclosed]⟩
      | none =>
          have carries := ((orderly_of_runs runs).2.calls consumer
            (List.mem_of_getElem? caller)).carries relay own
          rcases relays_of_carries carries closed unclosed with
            ⟨after, finished, less⟩ | ⟨after, received, less⟩
          · have stepped : server.machine.step state (.relay call) = some { state with
                consumers := state.consumers.set call { consumer with relay := some after } } := by
              simp [machine, step, stepRelay, caller, own, closed, finished]
            exact .inr ⟨.relay call, _, _, less, by simp [Serving.ofCall], stepped,
              runs.tail ⟨_, trivial, stepped⟩, _, raised, List.getElem?_set_self bounded, closed, rfl⟩
          · have stepped : server.machine.step state (.receive call) = some { state with
                consumers := state.consumers.set call { consumer with relay := some after } } := by
              simp [machine, step, stepRelay, caller, own, received]
            exact .inr ⟨.receive call, _, _, less, by simp [Serving.ofCall], stepped,
              runs.tail ⟨_, trivial, stepped⟩, _, raised, List.getElem?_set_self bounded, closed, rfl⟩

/-- From every state of a call whose task ends well, both its generators can end. -/
theorem ends_of_begun (runs : server.machine.Runs (fun _ _ => True) server.initial state)
    (caller : state.consumers[call]? = some consumer)
    (begun : state.engineRuns[call]? = some (some run))
    (ending : ∀ modelLoaded, (task modelLoaded run).ending = .ok ()) :
    ∃ later, server.machine.Runs (fun state event => state.ofCall call event = true) state later ∧
      later.Ended call := by
  obtain ⟨posted, channel, posts, callerPosted, queues, accepted, told⟩ :=
    told_of_begun runs caller begun ending
  have reached : server.machine.Runs (fun _ _ => True) server.initial posted :=
    runs.trans (posts.mono fun _ _ _ => trivial)
  obtain ⟨closed, consumes, reachedClosed, after, raised, callerClosed, stage⟩ :=
    closes_of_told reached callerPosted queues accepted told ending
  obtain ⟨later, relays, ended⟩ := ends_of_closed reachedClosed callerClosed stage
  exact ⟨later, (posts.trans consumes).trans relays, ended⟩

end Ending

section Yields

variable {server : InferenceServer} {state : Serving} {call : Nat} {consumer : Consumer}
  {messages chunks : List String} {raised : Option Thrown}

/-- The posts of a task whose engine yields its chunks and returns. -/
theorem posted_of_infers (modelLoaded : Bool) (messages chunks : List String) :
    (task modelLoaded (.infers messages chunks none)).actions.filterMap Post.response? =
        chunks ++ [sentinel] ∧
      (task modelLoaded (.infers messages chunks none)).actions.filterMap Post.failure? = [] := by
  simp only [task, List.filterMap_append, responses_progressPosts, responses_progressEnd,
    responses_chunks, failures_progressPosts, failures_progressEnd, failures_chunks]
  exact ⟨rfl, rfl⟩

/-- A caller that reaches the end took all chunks, if none reads like the end marker. -/
theorem delivered_of_infers (accounted : Accounted state)
    (caller : state.consumers[call]? = some consumer)
    (begun : state.engineRuns[call]? = some (some (.infers messages chunks none)))
    (closed : consumer.stage = .closed raised) (plain : sentinel ∉ chunks) :
    consumer.delivered = chunks ∧ raised = none := by
  obtain ⟨channel, posts, _, told, follows⟩ := accounted.told_of_caller caller
  simp only [Follows, begun] at follows
  obtain ⟨remaining, actions, _, _⟩ := follows.ahead
  have prior : posts <+: (task consumer.modelLoaded (.infers messages chunks none)).actions :=
    ⟨remaining, actions.symm⟩
  obtain ⟨produced, unfailed⟩ := posted_of_infers consumer.modelLoaded messages chunks
  rcases raised_of_begun accounted caller follows.accepted closed with rfl | rfl
  · refine ⟨?_, rfl⟩
    have responses := told.responses
    rw [responses_posted, closed, Stage.marks] at responses
    have received := prior.filterMap Post.response?
    rw [responses, produced, List.append_assoc, List.singleton_append] at received
    exact taken_eq told.clean plain received
  · exfalso
    have failed := told.failed closed
    rw [error_posted, ← List.head?_filterMap] at failed
    have none := prior.filterMap Post.failure?
    rw [unfailed] at none
    exact failed (by rw [List.prefix_nil.mp none]; rfl)

end Yields

/-- Both generators of a call yield exactly the chunks of their engine after the lines
about the loading of the model, if and only if no chunk reads like the end marker; and
they can always end. -/
theorem stream_is_transparent_iff {server : InferenceServer} {state : Serving} {call : Nat}
    {consumer : Consumer} {messages chunks : List String}
    (runs : server.machine.Runs (fun _ _ => True) server.initial state)
    (caller : state.consumers[call]? = some consumer)
    (begun : state.engineRuns[call]? = some (some (.infers messages chunks none))) :
    (∀ raised, consumer.stage = .closed raised →
      (consumer.Transparent consumer.outputs raised chunks ↔ sentinel ∉ chunks)) ∧
    (∀ relay raised, consumer.relay = some relay → relay.closed = some raised →
      (consumer.Transparent relay.delivered raised chunks ↔ sentinel ∉ chunks)) ∧
    ∃ later, server.machine.Runs (fun state event => state.ofCall call event = true) state later ∧
      later.Ended call := by
  obtain ⟨accounted, orderly⟩ := orderly_of_runs runs
  have ordered := orderly.calls consumer (List.mem_of_getElem? caller)
  have clean := outputs_clean accounted caller
  have unmarked (raised : Option Thrown)
      (transparent : consumer.Transparent consumer.outputs raised chunks) : sentinel ∉ chunks :=
    fun marked => clean (transparent.outputs ▸ List.mem_append_right _ marked)
  have yields (raised : Option Thrown) (closed : consumer.stage = .closed raised)
      (plain : sentinel ∉ chunks) :
      consumer.outputs = consumer.announced ++ chunks ∧ raised = none := by
    obtain ⟨delivered, unraised⟩ := delivered_of_infers accounted caller begun closed plain
    exact ⟨by rw [← delivered]; rfl, unraised⟩
  refine ⟨fun raised closed => ⟨unmarked raised, fun plain => ?_⟩,
    fun relay raised own closed => ?_, ends_of_begun runs caller begun fun _ => rfl⟩
  · obtain ⟨outputs, unraised⟩ := yields raised closed plain
    exact ⟨ordered.lines, outputs, unraised⟩
  · cases ordered.carries relay own with
    | flowing | ended | read => cases closed
    | @closed error stage =>
        cases closed
        refine ⟨unmarked _, fun plain => ?_⟩
        obtain ⟨outputs, rfl⟩ := yields error stage plain
        exact ⟨ordered.lines, outputs, rfl⟩

/-- An asynchronous call loads the model, and its engine yields one chunk. -/
def chunkRelayed : List ServingEvent :=
  [.predict "hi" false 0 true, .schedule (.check 0), .schedule (.number 0 0), .schedule (.put 0),
    .schedule (.loop 0), .schedule (.take 0 0), .begin 0 (.infers [] ["ok"] none),
    .schedule (.act 0), .schedule (.act 0), .schedule (.act 0), .consume 0, .consume 0, .consume 0,
    .consume 0, .consume 0, .consume 0, .consume 0, .consume 0, .receive 0, .receive 0, .relay 0,
    .receive 0, .receive 0]

def callerOfRelayed : Consumer :=
  ⟨false, .closed none, [loadingAnnounced], ["ok"],
    some ⟨[], none, true, false, [loadingAnnounced, "ok"], some none⟩⟩

def relayServed : Serving where
  isShuttingDown := false
  scheduler :=
    { queue := []
      stop := false
      sequence := 1
      futures := [.running]
      submits := [.accepted]
      workers := [.running ⟨0, 0, 1, 0⟩ ⟨[], .ok ()⟩]
      started := [0]
      env := [⟨[], [], none⟩] }
  consumers := [callerOfRelayed]
  engineRuns := [some (.infers [] ["ok"] none)]

theorem stream_is_transparent_relayed :
    (∀ raised, callerOfRelayed.stage = .closed raised →
      (callerOfRelayed.Transparent callerOfRelayed.outputs raised ["ok"] ↔ sentinel ∉ ["ok"])) ∧
    (∀ relay raised, callerOfRelayed.relay = some relay → relay.closed = some raised →
      (callerOfRelayed.Transparent relay.delivered raised ["ok"] ↔ sentinel ∉ ["ok"])) ∧
    ∃ later, oneWorkerServer.machine.Runs (fun state event => state.ofCall 0 event = true)
      relayServed later ∧ later.Ended 0 := by
  have played : oneWorkerServer.machine.play (fun _ _ => true) oneWorkerServer.initial chunkRelayed =
      some relayServed := rfl
  exact stream_is_transparent_iff (Machine.runs_of_play (fun _ _ _ => trivial) played)
    (show relayServed.consumers[0]? = some callerOfRelayed from rfl) rfl

/-- The engine yields the text of the end marker and another chunk. -/
def markerYielded : List ServingEvent :=
  callAccepted ++ [.schedule (.loop 0), .schedule (.take 0 0),
    .begin 0 (.infers [] [sentinel, "lost"] none), .schedule (.act 0), .schedule (.act 0),
    .schedule (.act 0), .schedule (.finish 0), .consume 0, .consume 0, .consume 0]

def callerOfMarker : Consumer := ⟨true, .closed none, [], [], none⟩

def markerServed : Serving where
  isShuttingDown := false
  scheduler :=
    { queue := []
      stop := false
      sequence := 1
      futures := [.result ()]
      submits := [.accepted]
      workers := [.checking]
      started := [0]
      env := [⟨["lost", sentinel], [], none⟩] }
  consumers := [callerOfMarker]
  engineRuns := [some (.infers [] [sentinel, "lost"] none)]

theorem marker_chunk_ends_stream :
    oneWorkerServer.machine.Runs (fun _ _ => True) oneWorkerServer.initial markerServed ∧
      callerOfMarker.outputs = [] ∧
      ¬ callerOfMarker.Transparent callerOfMarker.outputs none [sentinel, "lost"] := by
  have played : oneWorkerServer.machine.play (fun _ _ => true) oneWorkerServer.initial
      markerYielded = some markerServed := rfl
  refine ⟨Machine.runs_of_play (fun _ _ _ => trivial) played, rfl, fun transparent => ?_⟩
  cases transparent.outputs

end CyreneReactor.Runtime
