import CyreneReactor.Guarantees.Scheduling
import CyreneReactor.Runtime.Serving

namespace CyreneReactor.Runtime

open Interaction InferenceServer

/-! Whether a streaming caller is released once its task is over. -/

/-- Waiting for an item that is not there: the first generator in either of its
loops, or the second one after the first has ended. -/
def InferenceServer.Consumer.Starved (consumer : Consumer) (channel : Channel) : Prop :=
  (consumer.stage = .polling ∧ channel.progress = [] ∧ channel.error = none) ∨
  (consumer.stage = .reading ∧ channel.responses = []) ∨
  ∃ relay, consumer.relay = some relay ∧ relay.ended = true ∧ relay.reading = true ∧
    relay.queue = []

namespace Serving

variable (state : Serving)

/-- The task of a call has ended, its worker died of it, or no worker is left to run it. -/
def TaskOver (call : Nat) : Prop :=
  state.scheduler.submits[call]? = some .accepted ∧
    ((∃ future, state.scheduler.futures[call]? = some future ∧ future.resolved = true) ∨
      (∃ worker ∈ state.scheduler.workers, worker.isDead = true ∧ worker.runs call = true) ∨
      state.scheduler.AllGone)

/-- No caller waits for a task that is over. -/
def ReleasesAll : Prop :=
  ∀ (call : Nat) (consumer : Consumer) (channel : Channel),
    state.consumers[call]? = some consumer → state.scheduler.env[call]? = some channel →
    state.TaskOver call → ¬ consumer.Starved channel

/-- A task is put only while a worker is left, is not taken in the drain, and what it
raises is an `Exception`. -/
def steady : ServingEvent → Bool
  | .schedule (.take worker _) =>
      match state.scheduler.workers[worker]? with
      | some .getting => false
      | _ => true
  | .schedule event => state.scheduler.attended event
  | _ => true

end Serving

/-- The end marker of the first generator is on its way to the second one. -/
def InferenceServer.Consumer.Marked (consumer : Consumer) : Prop :=
  ∀ relay, consumer.relay = some relay → relay.ended = true → relay.reading = true →
    sentinel ∈ relay.queue

section Marked

variable {consumer after : Consumer} {relay next : Relay}

theorem marked_of_relayed {item : String} (marked : consumer.Marked)
    (relayed : after.relay = consumer.relayed item) : after.Marked := by
  intro relay own ended reading
  rw [relayed, Consumer.relayed, Option.map_eq_some_iff] at own
  obtain ⟨earlier, owned, rfl⟩ := own
  exact List.mem_append_left _ (marked earlier owned ended reading)

theorem marked_of_consume {submit : Submit} {channel rest : Channel} (marked : consumer.Marked)
    (consumed : consume submit consumer channel = some (after, rest)) : after.Marked := by
  cases (kept_of_consume consumed).2 with
  | nothing same => exact fun relay own => marked relay (same ▸ own)
  | chunk item relayed => exact marked_of_relayed marked relayed
  | progress text _ relayed => exact marked_of_relayed marked relayed

theorem marked_of_finish {raised : Option Thrown} (finished : relay.finish raised = some next)
    (ended : next.ended = true) : sentinel ∈ next.queue := by
  unfold Relay.finish at finished
  split at finished
  · cases finished
  · rename_i unended
    split at finished
    · cases finished
      exact absurd ended unended
    · cases finished
      simp

theorem marked_of_receive (received : relay.receive = some next)
    (marked : relay.ended = true → relay.reading = true → sentinel ∈ relay.queue)
    (ended : next.ended = true) (reading : next.reading = true) : sentinel ∈ next.queue := by
  unfold Relay.receive at received
  split at received
  · rename_i active
    split at received
    · cases received
    · rename_i item rest queue
      split at received
      · cases received
        cases reading
      · rename_i other
        cases received
        have member := marked ended active
        rw [queue, List.mem_cons] at member
        exact member.resolve_left fun same => other same.symm
  · rename_i inactive
    split at received
    · cases received
      exact absurd reading inactive
    · cases received

end Marked

section Steady

variable {server : InferenceServer} {state next : Serving} {event : ServingEvent}

/-- What a steady server keeps. -/
structure Steady (state : Serving) : Prop where
  attended : Attended state.scheduler
  undrained : ∀ (place : Nat) (taken : ScheduledTask),
    state.scheduler.workers[place]? ≠ some (.drained taken)
  begun : ∀ (call : Nat) (future : FutureState Unit), state.scheduler.futures[call]? = some future →
    future.resolved = true → ∃ run, state.engineRuns[call]? = some (some run)
  marked : ∀ consumer ∈ state.consumers, consumer.Marked

theorem steady_initial : Steady server.initial where
  attended := attended_initial
  undrained := fun place taken found => by
    have member := List.mem_of_getElem? found
    cases (List.mem_replicate.mp member).2
  begun := fun call future found => by simp [initial, TaskScheduler.initial] at found
  marked := fun consumer member => by simp [initial] at member

/-- A step of the scheduler, whatever becomes of the runs of the engines. -/
theorem Steady.of_scheduler (steady : Steady state) (accounted : Accounted state)
    {event : SchedulerEvent Post Unit} {scheduler : Scheduler Post Unit (List Channel)}
    {engineRuns : List (Option EngineRun)}
    (stepped : server.taskScheduler.Stepped state.scheduler event scheduler)
    (attended : state.scheduler.attended event = true)
    (uncancelled : ∀ call, event ≠ .cancel call)
    (main : ∀ place position, event = .take place position →
      state.scheduler.workers[place]? ≠ some .getting)
    (runs : ∀ (call : Nat) (run : EngineRun), state.engineRuns[call]? = some (some run) →
      ∃ run, engineRuns[call]? = some (some run)) :
    Steady { state with scheduler, engineRuns } := by
  refine ⟨attended_step stepped accounted.ledger steady.attended attended, ?_, ?_, steady.marked⟩
  · intro place taken found
    rcases stepped.drained_cases found with before | ⟨position, takes, getting⟩
    · exact steady.undrained place taken before
    · exact main place position takes getting
  · intro call future found resolved
    have kept : ∃ run, state.engineRuns[call]? = some (some run) := by
      rcases stepped.resolved_cases found resolved with before | cancelled |
        ⟨place, scheduled, same, ⟨_, ended⟩ | ⟨_, drained, _⟩⟩
      · exact steady.begun call future before resolved
      · exact absurd cancelled (uncancelled call)
      · rcases ended with ⟨_, here⟩ | ⟨_, here, _⟩
        · exact same ▸ begun_of_running accounted here
        · exact same ▸ begun_of_running accounted here
      · exact absurd drained (steady.undrained place scheduled)
    obtain ⟨run, known⟩ := kept
    exact runs call run known

theorem steady_step (stepped : Stepped server state event next) (accounted : Accounted state)
    (steady : Steady state) (allowed : state.steady event = true) : Steady next := by
  cases stepped with
  | refused => exact steady
  | shutdown => exact ⟨steady.attended, steady.undrained, steady.begun, steady.marked⟩
  | predict =>
      refine ⟨⟨steady.attended.alive, steady.attended.served⟩, steady.undrained, ?_, ?_⟩
      · intro call future found resolved
        rcases Counting.getElem?_append_singleton_cases found with before | ⟨_, rfl⟩
        · obtain ⟨run, known⟩ := steady.begun call future before resolved
          exact ⟨run, by rw [List.getElem?_append_left (List.getElem?_eq_some_iff.mp known).1, known]⟩
        · cases resolved
      · intro consumer member
        rcases List.mem_append.mp member with before | last
        · exact steady.marked consumer before
        · intro relay own ended
          rw [List.mem_singleton.mp last] at own
          simp only at own
          split at own
          · cases own
            cases ended
          · cases own
  | @schedule event scheduler admitted stepped =>
      refine steady.of_scheduler accounted stepped ?_ (fun call same => ?_)
        (fun place position same getting => ?_) fun call run known => ⟨run, known⟩
      · cases event <;> first | exact allowed | rfl
      · subst same
        cases admitted
      · subst same
        simp only [Serving.steady, getting] at allowed
        cases allowed
  | @begin _ begun taken _ _ here caller pending stepped =>
      refine steady.of_scheduler accounted stepped rfl (by simp) (by simp) fun call run known => ?_
      by_cases same : taken.future = call
      · exact ⟨begun, by rw [same, List.getElem?_set_self (List.getElem?_eq_some_iff.mp known).1]⟩
      · exact ⟨run, by rw [List.getElem?_set_ne same, known]⟩
  | consume submission caller queues consumed =>
      refine ⟨⟨steady.attended.alive, steady.attended.served⟩, steady.undrained, steady.begun, ?_⟩
      intro consumer member
      rcases List.mem_or_eq_of_mem_set member with before | rfl
      · exact steady.marked consumer before
      · exact marked_of_consume (steady.marked _ (List.mem_of_getElem? caller)) consumed
  | relay caller closed own finished =>
      refine ⟨steady.attended, steady.undrained, steady.begun, fun consumer member => ?_⟩
      rcases List.mem_or_eq_of_mem_set member with before | rfl
      · exact steady.marked consumer before
      · rintro relay ⟨⟩ ended _
        exact marked_of_finish finished ended
  | receive caller own received =>
      refine ⟨steady.attended, steady.undrained, steady.begun, fun consumer member => ?_⟩
      rcases List.mem_or_eq_of_mem_set member with before | rfl
      · exact steady.marked consumer before
      · rintro relay ⟨⟩ ended reading
        exact marked_of_receive received
          (steady.marked _ (List.mem_of_getElem? caller) _ own) ended reading

theorem steady_of_runs
    (runs : server.machine.Runs (fun state event => state.steady event = true) server.initial
      state) : Accounted state ∧ Steady state :=
  runs.invariant (fun state => Accounted state ∧ Steady state)
    (fun _ _ _ kept allowed stepped =>
      ⟨accounted_step (InferenceServer.stepped_of_step stepped) kept.1,
        steady_step (InferenceServer.stepped_of_step stepped) kept.1 kept.2 allowed⟩)
    ⟨accounted_initial, steady_initial⟩

/-- A caller that was told everything is not left waiting. -/
theorem released_of_told {consumer : Consumer} {channel : Channel} {run : EngineRun}
    (told : Told consumer channel (task consumer.modelLoaded run).actions)
    (ending : (task consumer.modelLoaded run).ending = .ok ()) (marked : consumer.Marked) :
    ¬ consumer.Starved channel := by
  rintro (⟨stage, queue, _⟩ | ⟨stage, queue⟩ | ⟨relay, own, ended, reading, queue⟩)
  · exact told.progress_ne_nil ending stage queue
  · exact told.responses_ne_nil ending stage queue
  · have waiting := marked relay own ended reading
    rw [queue] at waiting
    cases waiting

end Steady

/-- As long as tasks are put only while a worker is left, are not taken in the drain
of a stopped scheduler, and raise nothing that is not an `Exception`, no caller of
`stream_predict` or `async_stream_predict` waits for a task that is over. -/
theorem stream_callers_are_released (server : InferenceServer) (state : Serving)
    (runs : server.machine.Runs (fun state event => state.steady event = true) server.initial
      state) : state.ReleasesAll := by
  obtain ⟨accounted, steady⟩ := steady_of_runs runs
  intro call consumer channel caller queues isOver
  have told : ∃ future, state.scheduler.futures[call]? = some future ∧ future.resolved = true := by
    rcases isOver.2 with resolved | ⟨worker, member, dead, _⟩ | gone
    · exact resolved
    · rw [steady.attended.alive worker member] at dead
      cases dead
    · exact resolved_of_attended accounted.ledger steady.attended gone isOver.1
  obtain ⟨future, found, resolved⟩ := told
  obtain ⟨run, known⟩ := steady.begun call future found resolved
  obtain ⟨posts, told, follows⟩ := accounted.told call consumer channel caller queues
  simp only [Follows, known] at follows
  obtain ⟨remaining, actions, _, finished⟩ := follows.ahead
  obtain ⟨rfl, ending⟩ := finished future found resolved
  rw [List.append_nil] at actions
  exact released_of_told (actions ▸ told) ending
    (steady.marked consumer (List.mem_of_getElem? caller))

def oneWorkerServer : InferenceServer := ⟨1, 128⟩

/-- A call with a loaded model; its task is accepted. -/
def callAccepted : List ServingEvent :=
  [.predict "hi" true 0 false, .schedule (.check 0), .schedule (.number 0 0), .schedule (.put 0)]

/-- The server shuts down before a worker takes the task, which is then drained. -/
def taskDrained : List ServingEvent :=
  callAccepted ++ [.shutdown, .schedule .shutdown, .schedule (.loop 0), .schedule (.empty 0),
    .schedule (.take 0 0), .schedule (.abandon 0), .schedule (.empty 0), .consume 0]

def callerStranded : Serving where
  isShuttingDown := true
  scheduler :=
    { queue := []
      stop := true
      sequence := 1
      futures := [.exception TaskScheduler.stoppedBeforeExecution]
      submits := [.accepted]
      workers := [.exited]
      started := []
      env := [⟨[], [], none⟩] }
  consumers := [⟨true, .reading, [], [], none⟩]
  engineRuns := [none]

theorem stream_caller_is_stranded :
    oneWorkerServer.machine.Runs (fun _ _ => True) oneWorkerServer.initial callerStranded ∧
      ¬ callerStranded.ReleasesAll := by
  have played : oneWorkerServer.machine.play (fun _ _ => true) oneWorkerServer.initial taskDrained =
      some callerStranded := rfl
  refine ⟨Machine.runs_of_play (fun _ _ _ => trivial) played, fun released => ?_⟩
  exact released 0 ⟨true, .reading, [], [], none⟩ ⟨[], [], none⟩ rfl rfl
    ⟨rfl, .inl ⟨_, rfl, rfl⟩⟩ (.inr (.inl ⟨rfl, rfl⟩))

/-- The engine yields one chunk and the caller takes it. -/
def chunkServed : List ServingEvent :=
  callAccepted ++ [.schedule (.loop 0), .schedule (.take 0 0), .begin 0 (.infers [] ["ok"] none),
    .schedule (.act 0), .schedule (.act 0), .schedule (.finish 0), .consume 0, .consume 0,
    .consume 0, .consume 0]

def callerServed : Serving where
  isShuttingDown := false
  scheduler :=
    { queue := []
      stop := false
      sequence := 1
      futures := [.result ()]
      submits := [.accepted]
      workers := [.checking]
      started := [0]
      env := [⟨[], [], none⟩] }
  consumers := [⟨true, .closed none, [], ["ok"], none⟩]
  engineRuns := [some (.infers [] ["ok"] none)]

theorem stream_callers_are_released_serving : callerServed.ReleasesAll := by
  have played : oneWorkerServer.machine.play Serving.steady oneWorkerServer.initial chunkServed =
      some callerServed := rfl
  exact stream_callers_are_released oneWorkerServer callerServed
    (Machine.runs_of_play (fun _ _ admitted => admitted) played)

end CyreneReactor.Runtime
