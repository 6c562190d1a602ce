import CyreneReactor.Runtime.Delivery

namespace CyreneReactor.Runtime.InferenceServer

open Interaction TaskScheduler

/-! Runs of a server with its scheduler: every call is told what its task has posted. -/

variable {server : InferenceServer} {state next : Serving} {event : ServingEvent}

/-- What a step of the server does. -/
inductive Stepped (server : InferenceServer) (state : Serving) : ServingEvent → Serving → Prop
  | refused {prompt : String} {modelLoaded : Bool} {priority : Int} {asynchronous : Bool} :
      Stepped server state (.predict prompt modelLoaded priority asynchronous) state
  | predict {prompt : String} {modelLoaded : Bool} {priority : Int} {asynchronous : Bool} :
      Stepped server state (.predict prompt modelLoaded priority asynchronous) { state with
        scheduler := { state.scheduler with
          submits := state.scheduler.submits ++ [.checking priority]
          futures := state.scheduler.futures ++ [.pending]
          env := state.scheduler.env ++ [.opened modelLoaded] }
        consumers := state.consumers ++
          [⟨modelLoaded, .submitting, [], [], if asynchronous then some .opened else none⟩]
        engineRuns := state.engineRuns ++ [none] }
  | shutdown : Stepped server state .shutdown { state with isShuttingDown := true }
  | schedule {event : SchedulerEvent Post Unit}
      {scheduler : Scheduler Post Unit (List Channel)} (admitted : scheduled event = true)
      (stepped : server.taskScheduler.Stepped state.scheduler event scheduler) :
      Stepped server state (.schedule event) { state with scheduler }
  | begin {worker : Nat} {run : EngineRun} {taken : ScheduledTask} {consumer : Consumer}
      {scheduler : Scheduler Post Unit (List Channel)}
      (here : state.scheduler.workers[worker]? = some (.taken taken))
      (caller : state.consumers[taken.future]? = some consumer)
      (pending : state.scheduler.futures[taken.future]? = some .pending)
      (stepped : server.taskScheduler.Stepped state.scheduler
        (.begin worker (task consumer.modelLoaded run)) scheduler) :
      Stepped server state (.begin worker run) { state with
        scheduler
        engineRuns := state.engineRuns.set taken.future (some run) }
  | consume {call : Nat} {submit : Submit} {consumer after : Consumer} {channel rest : Channel}
      (submission : state.scheduler.submits[call]? = some submit)
      (caller : state.consumers[call]? = some consumer)
      (queues : state.scheduler.env[call]? = some channel)
      (consumed : InferenceServer.consume submit consumer channel = some (after, rest)) :
      Stepped server state (.consume call) { state with
        scheduler := { state.scheduler with env := state.scheduler.env.set call rest }
        consumers := state.consumers.set call after }
  | relay {call : Nat} {consumer : Consumer} {raised : Option Thrown} {relay after : Relay}
      (caller : state.consumers[call]? = some consumer)
      (closed : consumer.stage = .closed raised) (own : consumer.relay = some relay)
      (finished : relay.finish raised = some after) :
      Stepped server state (.relay call) { state with
        consumers := state.consumers.set call { consumer with relay := some after } }
  | receive {call : Nat} {consumer : Consumer} {relay after : Relay}
      (caller : state.consumers[call]? = some consumer) (own : consumer.relay = some relay)
      (received : relay.receive = some after) :
      Stepped server state (.receive call) { state with
        consumers := state.consumers.set call { consumer with relay := some after } }

theorem stepped_of_step (stepped : server.step state event = some next) :
    Stepped server state event next := by
  cases event <;> simp only [step] at stepped
  case predict =>
    simp only [stepPredict] at stepped
    split at stepped
    · cases stepped; exact .refused
    · cases stepped; exact .predict
  case shutdown => cases stepped; exact .shutdown
  case schedule =>
    split at stepped
    · obtain ⟨scheduler, moved, rfl⟩ := Option.map_eq_some_iff.mp stepped
      exact .schedule ‹_› (TaskScheduler.stepped_of_step moved)
    · cases stepped
  case begin =>
    simp only [stepBegin] at stepped
    split at stepped
    · split at stepped
      · obtain ⟨scheduler, moved, rfl⟩ := Option.map_eq_some_iff.mp stepped
        exact .begin ‹_› ‹_› ‹_› (TaskScheduler.stepped_of_step moved)
      · cases stepped
    · cases stepped
  case consume =>
    simp only [stepConsume] at stepped
    split at stepped
    · obtain ⟨⟨after, rest⟩, consumed, rfl⟩ := Option.map_eq_some_iff.mp stepped
      exact .consume ‹_› ‹_› ‹_› consumed
    · cases stepped
  case relay =>
    simp only [stepRelay] at stepped
    split at stepped
    · split at stepped
      · obtain ⟨after, finished, rfl⟩ := Option.map_eq_some_iff.mp stepped
        split at finished
        · exact .relay ‹_› ‹_› ‹_› finished
        · cases finished
      · cases stepped
    · cases stepped
  case receive =>
    simp only [stepRelay] at stepped
    split at stepped
    · split at stepped
      · obtain ⟨after, received, rfl⟩ := Option.map_eq_some_iff.mp stepped
        exact .receive ‹_› ‹_› received
      · cases stepped
    · cases stepped

/-- A task ends with an exception only when it is no `Exception`. -/
theorem isException_of_ending {modelLoaded : Bool} {run : EngineRun} {thrown : Thrown}
    (ending : (task modelLoaded run).ending = .error thrown) : thrown.isException = false := by
  have of_caught {posts : List Post} {raised : Thrown}
      (ending : (caught modelLoaded posts raised).ending = .error thrown) :
      thrown.isException = false := by
    unfold caught at ending
    split at ending
    · cases ending
    · cases ending
      exact Bool.eq_false_iff.mpr ‹_›
  cases run with
  | loadFails messages raised => exact of_caught ending
  | infers messages chunks last =>
      cases last with
      | none => cases ending
      | some raised => exact of_caught ending

/-- A task that its worker outlives has posted both end markers. -/
theorem marks_of_task {modelLoaded : Bool} {run : EngineRun}
    (ending : (task modelLoaded run).ending = .ok ()) :
    .respond sentinel ∈ (task modelLoaded run).actions ∧
      (modelLoaded = false → .progress progressSentinel ∈ (task modelLoaded run).actions) := by
  have of_caught {posts : List Post} {raised : Thrown}
      (ending : (caught modelLoaded posts raised).ending = .ok ()) :
      .respond sentinel ∈ (caught modelLoaded posts raised).actions ∧
        (modelLoaded = false →
          .progress progressSentinel ∈ (caught modelLoaded posts raised).actions) := by
    unfold caught at ending ⊢
    split at ending
    · rename_i exceptional
      rw [if_pos exceptional]
      exact ⟨by simp, fun unloaded => by simp [progressEnd, unloaded]⟩
    · cases ending
  cases run with
  | loadFails messages raised => exact of_caught ending
  | infers messages chunks last =>
      cases last with
      | none => exact ⟨by simp [task], fun unloaded => by simp [task, progressEnd, unloaded]⟩
      | some raised => exact of_caught ending

section Full

variable {consumer : Consumer} {channel : Channel} {run : EngineRun}

/-- A caller that was told everything still finds the end of the progress. -/
theorem Told.progress_ne_nil (told : Told consumer channel (task consumer.modelLoaded run).actions)
    (ending : (task consumer.modelLoaded run).ending = .ok ())
    (stage : consumer.stage = .polling) : channel.progress ≠ [] := by
  intro queue
  obtain ⟨seen, clean, taken⟩ := told.progress (by rw [stage]; rfl)
  have unloaded := told.unloaded (by rw [stage]; rfl) (by simp [stage])
  rw [queue, List.append_nil] at taken
  have posted : progressSentinel ∈
      (posted consumer.modelLoaded (task consumer.modelLoaded run).actions).progress := by
    rw [InferenceServer.posted, progress_foldl]
    exact List.mem_append_right _
      (List.mem_filterMap.mpr ⟨_, (marks_of_task ending).2 unloaded, rfl⟩)
  exact clean (taken ▸ posted)

/-- A caller that was told everything still finds the end marker. -/
theorem Told.responses_ne_nil (told : Told consumer channel (task consumer.modelLoaded run).actions)
    (ending : (task consumer.modelLoaded run).ending = .ok ())
    (stage : consumer.stage = .reading) : channel.responses ≠ [] := by
  intro queue
  have responses := told.responses
  rw [stage, queue, responses_posted] at responses
  have posted : sentinel ∈ (task consumer.modelLoaded run).actions.filterMap Post.response? :=
    List.mem_filterMap.mpr ⟨_, (marks_of_task ending).1, rfl⟩
  rw [responses] at posted
  simp only [Stage.marks, List.append_nil] at posted
  exact told.clean posted

end Full

/-- How far the task of a call has come, by what its engine does. -/
structure Begun (scheduler : Scheduler Post Unit (List Channel)) (call : Nat)
    (modelLoaded : Bool) (run : EngineRun) (posts : List Post) : Prop where
  started : scheduler.futures[call]? ≠ some .pending
  accepted : scheduler.submits[call]? = some .accepted
  ahead : ∃ remaining, (task modelLoaded run).actions = posts ++ remaining ∧
    (∀ (place : Nat) (scheduled : ScheduledTask) (job : Job Post Unit),
      scheduler.workers[place]? = some (.running scheduled job) → scheduled.future = call →
        job = ⟨remaining, (task modelLoaded run).ending⟩) ∧
    ∀ future : FutureState Unit, scheduler.futures[call]? = some future →
      future.resolved = true → remaining = [] ∧ (task modelLoaded run).ending = .ok ()

/-- No worker runs the task of a call. -/
def Unbegun (scheduler : Scheduler Post Unit (List Channel)) (call : Nat) : Prop :=
  ∀ (place : Nat) (scheduled : ScheduledTask) (job : Job Post Unit),
    scheduler.workers[place]? = some (.running scheduled job) → scheduled.future ≠ call

section Scheduler

variable {scheduler after : Scheduler Post Unit (List Channel)}
  {event : SchedulerEvent Post Unit} {call : Nat} {modelLoaded : Bool} {run : EngineRun}
  {posts : List Post}

theorem Begun.started_after (begun : Begun scheduler call modelLoaded run posts)
    (ledger : scheduler.Ledger) (stepped : server.taskScheduler.Stepped scheduler event after) :
    after.futures[call]? ≠ some .pending := by
  intro pending
  rcases stepped.pending_cases pending with before | last
  · exact begun.started before
  · have bound := (List.getElem?_eq_some_iff.mp begun.accepted).1
    have aligned := ledger.aligned
    omega

/-- A step of the scheduler that is not about the posts of the call. -/
theorem Begun.of_other (begun : Begun scheduler call modelLoaded run posts)
    (ledger : scheduler.Ledger) (stepped : server.taskScheduler.Stepped scheduler event after)
    (uncancelled : event ≠ .cancel call)
    (elsewhere : ∀ (place : Nat) (scheduled : ScheduledTask) (action : Post) (job : Job Post Unit),
      event = .act place → scheduler.workers[place]? =
        some (.running scheduled ⟨action :: job.actions, job.ending⟩) → scheduled.future ≠ call) :
    Begun after call modelLoaded run posts := by
  obtain ⟨remaining, actions, running, resolved⟩ := begun.ahead
  refine ⟨begun.started_after ledger stepped, stepped.submit_kept begun.accepted (.inl rfl),
    remaining, actions, ?_, ?_⟩
  · intro place scheduled job here same
    rcases stepped.running_cases here with before | ⟨_, _, pending⟩ | ⟨acts, action, before⟩
    · exact running place scheduled job before same
    · exact absurd (same ▸ pending) begun.started
    · exact absurd same (elsewhere place scheduled action job acts before)
  · intro future found settled
    rcases stepped.resolved_cases found settled with before | cancelled |
      ⟨place, scheduled, same, ⟨_, ended⟩ | ⟨_, _, pending⟩⟩
    · exact resolved future before settled
    · exact absurd cancelled uncancelled
    · rcases ended with ⟨value, here⟩ | ⟨thrown, here, exceptional⟩
      · have known := running place scheduled _ here same
        simp only [Job.mk.injEq] at known
        exact ⟨known.1.symm, known.2.symm⟩
      · have known := running place scheduled _ here same
        simp only [Job.mk.injEq] at known
        have uncaught := isException_of_ending known.2.symm
        rw [exceptional] at uncaught
        cases uncaught
    · exact absurd (same ▸ pending) begun.started

/-- The next post of the task of the call. -/
theorem Begun.of_act (begun : Begun scheduler call modelLoaded run posts)
    (ledger : scheduler.Ledger) (stepped : server.taskScheduler.Stepped scheduler event after)
    {place : Nat} {scheduled : ScheduledTask} {action : Post} {rest : List Post}
    {ending : Except Thrown Unit} (acts : event = .act place)
    (here : scheduler.workers[place]? = some (.running scheduled ⟨action :: rest, ending⟩))
    (moved : after.workers = scheduler.workers.set place (.running scheduled ⟨rest, ending⟩))
    (same : scheduled.future = call) :
    Begun after call modelLoaded run (posts ++ [action]) := by
  obtain ⟨remaining, actions, running, resolved⟩ := begun.ahead
  have known := running place scheduled _ here same
  simp only [Job.mk.injEq] at known
  obtain ⟨rfl, rfl⟩ := known
  refine ⟨begun.started_after ledger stepped, stepped.submit_kept begun.accepted (.inl rfl),
    rest, by simp [actions], ?_, ?_⟩
  · intro other taken job there also
    rw [moved] at there
    rcases Counting.getElem?_set_cases there with ⟨_, found⟩ | ⟨different, before⟩
    · cases found
      rfl
    · have single := runs_unique ledger before here (beq_iff_eq.mpr also) (beq_iff_eq.mpr same)
      exact absurd single different
  · intro future found settled
    rcases stepped.resolved_cases found settled with before | cancelled |
      ⟨_, _, _, ⟨finishes, _⟩ | ⟨abandons, _⟩⟩
    · exact absurd (resolved future before settled).1 (by simp)
    · cases acts.symm.trans cancelled
    · cases acts.symm.trans finishes
    · cases acts.symm.trans abandons

theorem Unbegun.of_stepped (unbegun : Unbegun scheduler call)
    (stepped : server.taskScheduler.Stepped scheduler event after)
    (elsewhere : ∀ (place : Nat) (scheduled : ScheduledTask) (job : Job Post Unit),
      event = .begin place job → scheduler.workers[place]? = some (.taken scheduled) →
        scheduled.future ≠ call) : Unbegun after call := by
  intro place scheduled job here
  rcases stepped.running_cases here with before | ⟨begins, taken, _⟩ | ⟨_, action, before⟩
  · exact unbegun place scheduled job before
  · exact elsewhere place scheduled job begins taken
  · exact unbegun place scheduled _ before

/-- A worker calls the task of the call. -/
theorem begun_of_begin (ledger : scheduler.Ledger) (unbegun : Unbegun scheduler call)
    {worker : Nat} {taken : ScheduledTask}
    (stepped : server.taskScheduler.Stepped scheduler (.begin worker (task modelLoaded run)) after)
    (here : scheduler.workers[worker]? = some (.taken taken)) (same : taken.future = call)
    (pending : scheduler.futures[taken.future]? = some .pending) :
    Begun after call modelLoaded run [] := by
  subst same
  have accepted : scheduler.submits[taken.future]? = some .accepted := by
    have balanced := ledger.balanced taken.future
    have held := Scheduler.held_pos here (beq_self_eq_true _)
    have future : (scheduler.entry taken.future).future = some .pending := pending
    simp only [Entry.Balanced, future] at balanced
    have known : (scheduler.entry taken.future).accepted = true := by
      cases known : (scheduler.entry taken.future).accepted with
      | true => rfl
      | false => rw [known, Bool.toNat_false] at balanced; omega
    exact of_decide_eq_true known
  refine ⟨?_, stepped.submit_kept accepted (.inl rfl), _, rfl, ?_, ?_⟩
  · cases stepped with
    | begin found waiting =>
        cases here.symm.trans found
        have bound := (List.getElem?_eq_some_iff.mp pending).1
        simp [Scheduler.setFuture, Scheduler.setWorker, bound]
    | skip found cancelled =>
        cases here.symm.trans found
        cases pending.symm.trans cancelled
    | misfire found waiting cancelled =>
        cases here.symm.trans found
        exact absurd pending waiting
  · intro place scheduled job there also
    rcases stepped.running_cases there with before | ⟨begins, _, _⟩ | ⟨acts, _⟩
    · exact absurd also (unbegun place scheduled job before)
    · cases begins
      rfl
    · cases acts
  · intro future found settled
    rcases stepped.resolved_cases found settled with before | cancelled |
      ⟨_, _, _, ⟨finishes, _⟩ | ⟨abandons, _⟩⟩
    · cases pending.symm.trans before
      cases settled
    · cases cancelled
    · cases finishes
    · cases abandons

end Scheduler

/-- The task of a call and the call itself agree on what was posted. -/
def Follows (state : Serving) (call : Nat) (consumer : Consumer) (posts : List Post) : Prop :=
  match state.engineRuns[call]? with
  | some (some run) => Begun state.scheduler call consumer.modelLoaded run posts
  | _ => posts = [] ∧ Unbegun state.scheduler call

structure Accounted (state : Serving) : Prop where
  ledger : state.scheduler.Ledger
  channels : state.scheduler.env.length = state.scheduler.submits.length
  callers : state.consumers.length = state.scheduler.submits.length
  runs : state.engineRuns.length = state.scheduler.submits.length
  told : ∀ (call : Nat) (consumer : Consumer) (channel : Channel),
    state.consumers[call]? = some consumer → state.scheduler.env[call]? = some channel →
    ∃ posts, Told consumer channel posts ∧ Follows state call consumer posts
  shown : ∀ consumer ∈ state.consumers, sentinel ∉ consumer.announced
  raised : ∀ (call : Nat) (consumer : Consumer) (thrown : Thrown),
    state.consumers[call]? = some consumer → consumer.stage = .closed (some thrown) →
    thrown = RuntimeError "Inference failed" ∨ state.scheduler.submits[call]? = some .busy ∨
      state.scheduler.submits[call]? = some .refused

theorem Follows.of_kept {state next : Serving} {call : Nat} {consumer after : Consumer}
    {posts : List Post} (follows : Follows state call consumer posts)
    (modelLoaded : after.modelLoaded = consumer.modelLoaded)
    (runs : next.engineRuns[call]? = state.engineRuns[call]?)
    (begun : ∀ run, state.engineRuns[call]? = some (some run) →
      Begun state.scheduler call consumer.modelLoaded run posts →
        Begun next.scheduler call consumer.modelLoaded run posts)
    (unbegun : Unbegun state.scheduler call → Unbegun next.scheduler call) :
    Follows next call after posts := by
  unfold Follows at follows ⊢
  rw [runs, modelLoaded]
  split
  · rename_i run found
    simp only [found] at follows
    exact begun run found follows
  · rename_i absent
    split at follows
    · rename_i run found
      exact absurd found (absent run)
    · exact ⟨follows.1, unbegun follows.2⟩

/-- Every call has its queues. -/
theorem Accounted.told_of_caller (accounted : Accounted state) {call : Nat} {consumer : Consumer}
    (caller : state.consumers[call]? = some consumer) :
    ∃ channel posts, state.scheduler.env[call]? = some channel ∧ Told consumer channel posts ∧
      Follows state call consumer posts := by
  have bound := (List.getElem?_eq_some_iff.mp caller).1
  rw [accounted.callers, ← accounted.channels] at bound
  have queues := List.getElem?_eq_getElem bound
  obtain ⟨posts, told, follows⟩ := accounted.told call consumer _ caller queues
  exact ⟨_, posts, queues, told, follows⟩

/-- A call that a worker runs was begun. -/
theorem begun_of_running (accounted : Accounted state) {place : Nat} {scheduled : ScheduledTask}
    {job : Job Post Unit}
    (here : state.scheduler.workers[place]? = some (.running scheduled job)) :
    ∃ run, state.engineRuns[scheduled.future]? = some (some run) := by
  have running : state.scheduler.futures[scheduled.future]? = some .running :=
    (accounted.ledger.balanced scheduled.future).future_of_run
      (Scheduler.run_pos here (beq_self_eq_true _))
  have bound := (List.getElem?_eq_some_iff.mp running).1
  rw [accounted.ledger.aligned] at bound
  have called : scheduled.future < state.consumers.length := by rw [accounted.callers]; exact bound
  obtain ⟨_, _, _, _, follows⟩ := accounted.told_of_caller (List.getElem?_eq_getElem called)
  unfold Follows at follows
  split at follows
  · exact ⟨_, ‹_›⟩
  · exact absurd rfl (follows.2 place scheduled job here)

/-- No call yields the end marker. -/
theorem outputs_clean (accounted : Accounted state) {call : Nat} {consumer : Consumer}
    (caller : state.consumers[call]? = some consumer) : sentinel ∉ consumer.outputs := by
  obtain ⟨_, _, _, told, _⟩ := accounted.told_of_caller caller
  simp [Consumer.outputs, told.clean, accounted.shown consumer (List.mem_of_getElem? caller)]

/-- A call whose task was begun ends with nothing or with one and the same exception. -/
theorem raised_of_begun (accounted : Accounted state) {call : Nat} {consumer : Consumer}
    {raised : Option Thrown}
    (caller : state.consumers[call]? = some consumer)
    (accepted : state.scheduler.submits[call]? = some .accepted)
    (closed : consumer.stage = .closed raised) :
    raised = none ∨ raised = some (RuntimeError "Inference failed") := by
  cases raised with
  | none => exact .inl rfl
  | some thrown =>
      rcases accounted.raised call consumer thrown caller closed with rfl | busy | refused
      · exact .inr rfl
      · cases accepted.symm.trans busy
      · cases accepted.symm.trans refused

theorem accounted_initial : Accounted server.initial where
  ledger := ledger_initial
  channels := rfl
  callers := rfl
  runs := rfl
  told := fun call consumer channel found => by simp [initial] at found
  shown := fun consumer member => by simp [initial] at member
  raised := fun call consumer thrown found => by simp [initial] at found

theorem Accounted.predict (server : InferenceServer) (accounted : Accounted state)
    (modelLoaded asynchronous : Bool) (priority : Int) : Accounted { state with
      scheduler := { state.scheduler with
        submits := state.scheduler.submits ++ [.checking priority]
        futures := state.scheduler.futures ++ [.pending]
        env := state.scheduler.env ++ [.opened modelLoaded] }
      consumers := state.consumers ++
        [⟨modelLoaded, .submitting, [], [], if asynchronous then some .opened else none⟩]
      engineRuns := state.engineRuns ++ [none] } := by
  have ledger := accounted.ledger
  have channels := accounted.channels
  have callers := accounted.callers
  have runs := accounted.runs
  have submitted : server.taskScheduler.Stepped state.scheduler (.submit priority)
      { state.scheduler with
        submits := state.scheduler.submits ++ [.checking priority]
        futures := state.scheduler.futures ++ [.pending] } := .submit priority
  have settled := submitted.ledger ledger
  refine ⟨⟨settled.balanced, settled.own, settled.aligned⟩, by simp [channels], by simp [callers],
    by simp [runs], ?_, ?_, ?_⟩
  · intro call consumer channel found queues
    rcases Counting.getElem?_append_singleton_cases found with before | ⟨rfl, rfl⟩
    · have bound := (List.getElem?_eq_some_iff.mp before).1
      rw [List.getElem?_append_left (by omega)] at queues
      obtain ⟨posts, told, follows⟩ := accounted.told call consumer channel before queues
      refine ⟨posts, told, follows.of_kept rfl ?_ ?_ ?_⟩
      · exact List.getElem?_append_left (by omega)
      · intro run _ begun
        have kept := begun.of_other ledger submitted (by simp) (by simp)
        exact ⟨kept.started, kept.accepted, kept.ahead⟩
      · intro unbegun
        exact unbegun
    · rw [callers, ← channels, List.getElem?_concat_length, Option.some.injEq] at queues
      subst queues
      refine ⟨[], told_opened modelLoaded _, ?_⟩
      unfold Follows
      rw [show state.consumers.length = state.engineRuns.length by omega,
        List.getElem?_concat_length]
      refine ⟨rfl, fun place scheduled job here same => ?_⟩
      have running : state.scheduler.futures[scheduled.future]? = some .running :=
        (ledger.balanced scheduled.future).future_of_run
          (Scheduler.run_pos here (beq_self_eq_true _))
      have bound := (List.getElem?_eq_some_iff.mp running).1
      have aligned := ledger.aligned
      omega
  · intro consumer member
    rcases List.mem_append.mp member with before | last
    · exact accounted.shown consumer before
    · simp [List.mem_singleton.mp last]
  · intro call consumer thrown found closed
    rcases Counting.getElem?_append_singleton_cases found with before | ⟨_, rfl⟩
    · have bound := (List.getElem?_eq_some_iff.mp before).1
      have kept := accounted.raised call consumer thrown before closed
      simpa only [List.getElem?_append_left (show call < state.scheduler.submits.length by omega)]
        using kept
    · cases closed

theorem Accounted.schedule (accounted : Accounted state) {event : SchedulerEvent Post Unit}
    {scheduler : Scheduler Post Unit (List Channel)} (admitted : scheduled event = true)
    (stepped : server.taskScheduler.Stepped state.scheduler event scheduler) :
    Accounted { state with scheduler } := by
  have ledger := accounted.ledger
  have length : scheduler.submits.length = state.scheduler.submits.length :=
    stepped.submits_length fun priority same => by subst same; cases admitted
  have channels : scheduler.env.length = state.scheduler.env.length := by
    rcases stepped.env_cases with ⟨same, _⟩ | ⟨_, _, _, _, _, _, _, _, moved⟩
    · rw [same]
    · rw [moved]
      exact List.length_modify ..
  refine ⟨stepped.ledger ledger, by rw [channels, length, accounted.channels],
    by rw [length, accounted.callers], by rw [length, accounted.runs], ?_, accounted.shown, ?_⟩
  · intro call consumer channel found queues
    have uncancelled : event ≠ .cancel call := fun same => by subst same; cases admitted
    have unbegun (unbegun : Unbegun state.scheduler call) : Unbegun scheduler call :=
      unbegun.of_stepped stepped fun _ _ _ same => by subst same; cases admitted
    have other (queues : state.scheduler.env[call]? = some channel)
        (elsewhere : ∀ (place : Nat) (scheduled : ScheduledTask) (action : Post)
          (job : Job Post Unit), event = .act place → state.scheduler.workers[place]? =
            some (.running scheduled ⟨action :: job.actions, job.ending⟩) →
          scheduled.future ≠ call) :
        ∃ posts, Told consumer channel posts ∧
          Follows { state with scheduler } call consumer posts := by
      obtain ⟨posts, told, follows⟩ := accounted.told call consumer channel found queues
      exact ⟨posts, told, follows.of_kept rfl rfl
        (fun _ _ begun => begun.of_other ledger stepped uncancelled elsewhere) unbegun⟩
    rcases stepped.env_cases with ⟨same, quiet⟩ |
      ⟨place, scheduled, action, rest, ending, acts, here, moved, env⟩
    · rw [same] at queues
      exact other queues fun place _ _ _ acts => absurd acts (quiet place)
    · change scheduler.env = state.scheduler.env.modify scheduled.future _ at env
      rw [env] at queues
      by_cases about : scheduled.future = call
      · rw [about, List.getElem?_modify_eq, Option.map_eq_map, Option.map_eq_some_iff] at queues
        obtain ⟨earlier, before, rfl⟩ := queues
        obtain ⟨posts, told, follows⟩ := accounted.told call consumer earlier found before
        refine ⟨posts ++ [action], told.post action, ?_⟩
        unfold Follows at follows ⊢
        simp only
        split
        · rename_i run known
          simp only [known] at follows
          exact follows.of_act ledger stepped acts here moved about
        · rename_i absent
          split at follows
          · rename_i run known
            exact absurd known (absent run)
          · exact absurd about (follows.2 place scheduled _ here)
      · rw [List.getElem?_modify_ne _ _ about] at queues
        refine other queues fun index taken _ _ also there => ?_
        rw [acts, SchedulerEvent.act.injEq] at also
        subst also
        cases here.symm.trans there
        exact about
  · intro call consumer thrown found closed
    rcases accounted.raised call consumer thrown found closed with failed | busy | refused
    · exact .inl failed
    · exact .inr (.inl (stepped.submit_kept busy (.inr (.inl rfl))))
    · exact .inr (.inr (stepped.submit_kept refused (.inr (.inr rfl))))

theorem Accounted.begin (accounted : Accounted state) {worker : Nat} {run : EngineRun}
    {taken : ScheduledTask} {consumer : Consumer}
    {scheduler : Scheduler Post Unit (List Channel)}
    (here : state.scheduler.workers[worker]? = some (.taken taken))
    (caller : state.consumers[taken.future]? = some consumer)
    (pending : state.scheduler.futures[taken.future]? = some .pending)
    (stepped : server.taskScheduler.Stepped state.scheduler
      (.begin worker (task consumer.modelLoaded run)) scheduler) :
    Accounted { state with
      scheduler
      engineRuns := state.engineRuns.set taken.future (some run) } := by
  have ledger := accounted.ledger
  have length : scheduler.submits.length = state.scheduler.submits.length :=
    stepped.submits_length (by simp)
  have env : scheduler.env = state.scheduler.env := by
    rcases stepped.env_cases with ⟨same, _⟩ | ⟨_, _, _, _, _, acts, _⟩
    · exact same
    · cases acts
  refine ⟨stepped.ledger ledger, by rw [env, length, accounted.channels],
    by rw [length, accounted.callers], by simp [length, accounted.runs], ?_, accounted.shown, ?_⟩
  · intro call other channel found queues
    rw [show ({ state with scheduler, engineRuns := state.engineRuns.set taken.future (some run) }
      : Serving).scheduler.env = state.scheduler.env from env] at queues
    obtain ⟨posts, told, follows⟩ := accounted.told call other channel found queues
    refine ⟨posts, told, ?_⟩
    by_cases same : taken.future = call
    · have callerIs : other = consumer := Option.some.inj (found.symm.trans (same ▸ caller))
      have unbegun : posts = [] ∧ Unbegun state.scheduler call := by
        unfold Follows at follows
        split at follows
        · exact absurd (same ▸ pending) follows.started
        · exact follows
      have bound : call < state.engineRuns.length := by
        have inside := (List.getElem?_eq_some_iff.mp found).1
        rw [accounted.runs, ← accounted.callers]
        exact inside
      unfold Follows
      rw [same, List.getElem?_set_self bound, unbegun.1, callerIs]
      exact begun_of_begin ledger unbegun.2 stepped here same pending
    · refine follows.of_kept rfl (List.getElem?_set_ne same) ?_ ?_
      · exact fun _ _ begun => begun.of_other ledger stepped (by simp) (by simp)
      · intro unbegun
        refine unbegun.of_stepped stepped fun place scheduled job begins found => ?_
        cases begins
        cases here.symm.trans found
        exact same
  · intro call other thrown found closed
    rcases accounted.raised call other thrown found closed with failed | busy | refused
    · exact .inl failed
    · exact .inr (.inl (stepped.submit_kept busy (.inr (.inl rfl))))
    · exact .inr (.inr (stepped.submit_kept refused (.inr (.inr rfl))))

/-- A step of a call that changes only what the call has taken. -/
theorem Accounted.of_caller (accounted : Accounted state) {call : Nat}
    {consumer after : Consumer} {channel rest : Channel}
    (caller : state.consumers[call]? = some consumer)
    (queues : state.scheduler.env[call]? = some channel)
    (modelLoaded : after.modelLoaded = consumer.modelLoaded)
    (told : ∀ posts, Told consumer channel posts → Told after rest posts)
    (shown : sentinel ∉ after.announced)
    (raised : ∀ thrown, after.stage = .closed (some thrown) →
      thrown = RuntimeError "Inference failed" ∨ state.scheduler.submits[call]? = some .busy ∨
        state.scheduler.submits[call]? = some .refused) :
    Accounted { state with
      scheduler := { state.scheduler with env := state.scheduler.env.set call rest }
      consumers := state.consumers.set call after } := by
  refine ⟨⟨accounted.ledger.balanced, accounted.ledger.own, accounted.ledger.aligned⟩,
    by simp [accounted.channels], by simp [accounted.callers], accounted.runs, ?_, ?_, ?_⟩
  · intro place other channelThere found there
    rcases Counting.getElem?_set_cases found with ⟨rfl, rfl⟩ | ⟨different, before⟩
    · have bound := (List.getElem?_eq_some_iff.mp queues).1
      rw [List.getElem?_set_self bound, Option.some.injEq] at there
      subst there
      obtain ⟨posts, earlier, follows⟩ := accounted.told place consumer channel caller queues
      refine ⟨posts, told posts earlier, follows.of_kept modelLoaded rfl ?_ ?_⟩
      · exact fun _ _ begun => ⟨begun.started, begun.accepted, begun.ahead⟩
      · exact fun unbegun => unbegun
    · rw [List.getElem?_set_ne (Ne.symm different)] at there
      obtain ⟨posts, earlier, follows⟩ := accounted.told place other channelThere before there
      refine ⟨posts, earlier, follows.of_kept rfl rfl ?_ ?_⟩
      · exact fun _ _ begun => ⟨begun.started, begun.accepted, begun.ahead⟩
      · exact fun unbegun => unbegun
  · intro other member
    rcases List.mem_or_eq_of_mem_set member with before | rfl
    · exact accounted.shown other before
    · exact shown
  · intro place other thrown found closed
    rcases Counting.getElem?_set_cases found with ⟨rfl, rfl⟩ | ⟨_, before⟩
    · exact raised thrown closed
    · exact accounted.raised place other thrown before closed

/-- A step of the relay of a call. -/
theorem Accounted.of_relay (accounted : Accounted state) {call : Nat} {consumer : Consumer}
    (caller : state.consumers[call]? = some consumer) (relay : Option Relay) :
    Accounted { state with consumers := state.consumers.set call { consumer with relay } } := by
  obtain ⟨channel, _, queues, _⟩ := accounted.told_of_caller caller
  have kept : Accounted { state with
      scheduler := { state.scheduler with env := state.scheduler.env.set call channel }
      consumers := state.consumers.set call { consumer with relay } } :=
    accounted.of_caller caller queues rfl (fun posts told => told.of_relay relay)
      (accounted.shown consumer (List.mem_of_getElem? caller)) (accounted.raised call consumer · caller)
  rwa [Counting.set_self queues] at kept

theorem accounted_step (stepped : Stepped server state event next) (accounted : Accounted state) :
    Accounted next := by
  cases stepped with
  | refused => exact accounted
  | shutdown =>
      exact ⟨accounted.ledger, accounted.channels, accounted.callers, accounted.runs,
        accounted.told, accounted.shown, accounted.raised⟩
  | predict => exact accounted.predict server _ _ _
  | schedule admitted stepped => exact accounted.schedule admitted stepped
  | begin here caller pending stepped => exact accounted.begin here caller pending stepped
  | consume submission caller queues consumed =>
      refine accounted.of_caller caller queues (kept_of_consume consumed).1
        (fun posts told => told.consume consumed) ?_ fun thrown closed => ?_
      · have shown := accounted.shown _ (List.mem_of_getElem? caller)
        cases (kept_of_consume consumed).2 with
        | nothing _ announced | chunk _ _ announced => rwa [announced]
        | progress text different _ announced => simp [announced, shown, Ne.symm different]
      rcases raised_of_consume consumed closed with failed | rfl | rfl
      · exact .inl failed
      · exact .inr (.inl submission)
      · exact .inr (.inr submission)
  | relay caller closed own finished => exact accounted.of_relay caller _
  | receive caller own received => exact accounted.of_relay caller _

theorem accounted_of_runs {allowed : Serving → ServingEvent → Prop}
    (runs : server.machine.Runs allowed server.initial state) : Accounted state :=
  runs.invariant Accounted
    (fun _ _ _ accounted _ stepped => accounted_step (stepped_of_step stepped) accounted)
    accounted_initial

end CyreneReactor.Runtime.InferenceServer
