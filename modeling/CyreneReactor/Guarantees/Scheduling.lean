import Mathlib.Data.List.Nodup
import CyreneReactor.Runtime.Custody

namespace CyreneReactor.Runtime

open Interaction TaskScheduler

/-! What becomes of accepted tasks, and of workers, when the scheduler shuts down. -/

def Worker.gone {Action Value : Type} : Worker Action Value → Bool
  | .exited | .died _ => true
  | _ => false

def Worker.isDead {Action Value : Type} : Worker Action Value → Bool
  | .died _ => true
  | _ => false

/-- Waiting in the `get` of the drain, which has no timeout. -/
def Worker.isGetting {Action Value : Type} : Worker Action Value → Bool
  | .getting => true
  | _ => false

/-- Inside `submit`, which has neither returned nor raised. -/
def Submit.inProgress : Submit → Bool
  | .checking _ | .passed _ | .numbered _ => true
  | _ => false

/-- Past the check of the stop signal, with nothing in the queue yet. -/
def Submit.bound : Submit → Bool
  | .passed _ | .numbered _ => true
  | _ => false

namespace Scheduler

variable {Action Value Env : Type} (state : Scheduler Action Value Env)

def AllGone : Prop := ∀ worker ∈ state.workers, worker.gone = true

def NoneSubmits : Prop := ∀ submit ∈ state.submits, submit.inProgress = false

instance : Decidable state.AllGone :=
  inferInstanceAs (Decidable (∀ worker ∈ state.workers, worker.gone = true))

instance : Decidable state.NoneSubmits :=
  inferInstanceAs (Decidable (∀ submit ∈ state.submits, submit.inProgress = false))

/-- With all workers gone and no submission under way, every returned future is resolved. -/
def LosesNone : Prop :=
  state.AllGone → state.NoneSubmits → ∀ index : Nat, state.submits[index]? = some .accepted →
    ∃ future, state.futures[index]? = some future ∧ future.resolved = true

/-- With no submission under way, no worker waits for a task that cannot come. -/
def WedgesNone : Prop :=
  state.NoneSubmits → ∀ worker ∈ state.workers, worker.isGetting = true → state.queue ≠ []

/-- A task enters the queue only while a worker is left, and no callable raises
what is not an `Exception`. -/
def attended : SchedulerEvent Action Value → Bool
  | .put _ => state.workers.any fun worker => !worker.gone
  | .finish index =>
      match state.workers[index]? with
      | some (.running _ ⟨_, .error thrown⟩) => thrown.isException
      | _ => true
  | _ => true

/-- The last task is taken only when no other worker waits for one in its drain,
or when a task is still on its way. -/
def leavesOne : SchedulerEvent Action Value → Bool
  | .take index _ =>
      decide (1 < state.queue.length) || state.submits.any Submit.bound ||
        !(state.workers.eraseIdx index).any Worker.isGetting
  | _ => true

end Scheduler

section Runs

variable {Action Value Env : Type} {scheduler : TaskScheduler Action Env} {env : Env}
  {state next : Scheduler Action Value Env} {allowed : Scheduler Action Value Env →
    SchedulerEvent Action Value → Prop}

/-- No callable is called twice. -/
theorem started_nodup (runs : scheduler.machine.Runs allowed (scheduler.initial env) state) :
    state.started.Nodup :=
  List.nodup_iff_count_le_one.mpr fun index =>
    ((ledger_of_runs runs).balanced index).begun_le

/-- What an attended scheduler keeps: no worker died, and the last one to leave
found the queue empty. -/
structure Attended (state : Scheduler Action Value Env) : Prop where
  alive : ∀ worker ∈ state.workers, worker.isDead = false
  served : state.AllGone → state.queue = []

theorem attended_initial : Attended (scheduler.initial env : Scheduler Action Value Env) where
  alive := fun worker member => by simp [(List.mem_replicate.mp member).2, Worker.isDead]
  served := fun _ => rfl

/-- A worker that is not gone after its step keeps what an attended scheduler keeps. -/
theorem Attended.of_worker {place : Nat} {old new : Worker Action Value}
    (attended : Attended state) (here : state.workers[place]? = some old)
    (moved : next.workers = state.workers.set place new) (busy : new.gone = false) :
    Attended next where
  alive := fun worker member => by
    rw [moved] at member
    rcases List.mem_or_eq_of_mem_set member with before | rfl
    · exact attended.alive worker before
    · cases worker <;> simp_all [Worker.gone, Worker.isDead]
  served := fun gone => by
    have last := gone new (moved ▸ Counting.mem_set_self here)
    rw [busy] at last
    cases last

theorem attended_step {event : SchedulerEvent Action Value}
    (stepped : Stepped scheduler state event next) (ledger : state.Ledger)
    (attended : Attended state) (allowed : state.attended event = true) : Attended next := by
  cases stepped with
  | submit | refuse | pass | number | full | cancel | shutdown =>
      exact ⟨attended.alive, attended.served⟩
  | put here room =>
      obtain ⟨worker, member, left⟩ := List.any_eq_true.mp allowed
      refine ⟨attended.alive, fun gone => ?_⟩
      have absent : worker.gone = true := gone worker member
      simp [absent] at left
  | leave here | poll here | timeout here | take here | begin here | skip here | act here
  | succeed here | fail here | get here | drain here | abandon here | skipDrained here =>
      exact attended.of_worker here rfl rfl
  | exit here empty =>
      refine ⟨fun worker member => ?_, fun _ => empty⟩
      rcases List.mem_or_eq_of_mem_set member with before | rfl
      · exact attended.alive worker before
      · rfl
  | crash here uncaught =>
      simp only [Scheduler.attended, here, uncaught] at allowed
      cases allowed
  | misfire here pending cancelled | misfireDrained here pending cancelled =>
      rcases ledger.future_of_held here (beq_self_eq_true _) with found | found
      · exact absurd found pending
      · exact absurd found cancelled

theorem attended_of_runs
    (runs : scheduler.machine.Runs (fun state event => state.attended event = true)
      (scheduler.initial env) state) : Attended state :=
  (runs.invariant (fun state => state.Ledger ∧ Attended state)
    (fun _ _ _ kept allowed stepped =>
      ⟨(stepped_of_step stepped).ledger kept.1,
        attended_step (stepped_of_step stepped) kept.1 kept.2 allowed⟩)
    ⟨ledger_initial, attended_initial⟩).2

/-- With all workers gone and the queue empty, an accepted task is told its end. -/
theorem resolved_of_attended (ledger : state.Ledger) (attended : Attended state)
    (gone : state.AllGone) {index : Nat} (accepted : state.submits[index]? = some .accepted) :
    ∃ future, state.futures[index]? = some future ∧ future.resolved = true := by
  have balanced := ledger.balanced index
  have queued : (state.entry index).queued = 0 := by
    simp [Scheduler.entry, attended.served gone]
  have held : (state.entry index).held = 0 := by
    refine List.countP_eq_zero.mpr fun worker member holds => ?_
    have absent := gone worker member
    cases worker <;> simp [Worker.gone] at *
  have run : (state.entry index).run = 0 := by
    refine List.countP_eq_zero.mpr fun worker member runs => ?_
    have absent := gone worker member
    have alive := attended.alive worker member
    cases worker <;> simp [Worker.gone, Worker.isDead] at *
  have taken : (state.entry index).accepted = true := by simp [Scheduler.entry, accepted]
  have known : state.futures[index]? = (state.entry index).future := rfl
  rw [known]
  cases found : (state.entry index).future with
  | none => simp [Entry.Balanced, found, taken] at balanced
  | some future =>
      refine ⟨future, rfl, ?_⟩
      cases future <;> simp_all [Entry.Balanced, FutureState.resolved]

/-- A worker waits in its drain for a task that is there or on its way. -/
def Supplied (state : Scheduler Action Value Env) : Prop :=
  (∃ worker ∈ state.workers, worker.isGetting = true) →
    state.queue ≠ [] ∨ ∃ submit ∈ state.submits, submit.bound = true

/-- A step of a worker that leaves the queue and the submissions alone, and does not
start to wait. -/
theorem Supplied.of_worker {place : Nat} {new : Worker Action Value} (supplied : Supplied state)
    (moved : next.workers = state.workers.set place new)
    (queue : next.queue = state.queue) (submits : next.submits = state.submits)
    (moving : new.isGetting = false) : Supplied next := by
  rintro ⟨worker, member, getting⟩
  rw [queue, submits]
  rw [moved] at member
  rcases List.mem_or_eq_of_mem_set member with before | rfl
  · exact supplied ⟨worker, before, getting⟩
  · rw [moving] at getting
    cases getting

/-- A step of a submission that leaves the workers alone, and the task where it is. -/
theorem Supplied.of_submit {place : Nat} {submit answer : Submit}
    (supplied : Supplied state) (here : state.submits[place]? = some submit)
    (moved : next.submits = state.submits.set place answer)
    (workers : next.workers = state.workers) (queue : next.queue = state.queue)
    (keeps : submit.bound = true → answer.bound = true) : Supplied next := by
  intro getting
  rw [workers] at getting
  rw [queue, moved]
  rcases supplied getting with remaining | ⟨other, member, bound⟩
  · exact .inl remaining
  · by_cases same : other = submit
    · exact .inr ⟨answer, Counting.mem_set_self here, keeps (same ▸ bound)⟩
    · exact .inr ⟨other, Counting.mem_set_of_mem member here same, bound⟩

/-- Taking a task while another one, or no other worker, waits. -/
theorem supplied_of_take {place position : Nat} {new : Worker Action Value} {task : ScheduledTask}
    (front : state.queue[position]? = some task) (moving : new.isGetting = false)
    (allowed : state.leavesOne (.take place position : SchedulerEvent Action Value) = true) :
    Supplied { state.setWorker place new with queue := state.queue.eraseIdx position } := by
  rintro ⟨worker, member, getting⟩
  have bound := (List.getElem?_eq_some_iff.mp front).1
  simp only [Scheduler.leavesOne, Bool.or_eq_true, decide_eq_true_eq, Bool.not_eq_true'] at allowed
  rcases allowed with (more | bounded) | alone
  · left
    refine List.ne_nil_of_length_pos ?_
    rw [List.length_eraseIdx_of_lt bound]
    omega
  · obtain ⟨submit, found, waits⟩ := List.any_eq_true.mp bounded
    exact .inr ⟨submit, found, waits⟩
  · obtain ⟨index, found⟩ := List.getElem?_of_mem member
    rcases Counting.getElem?_set_cases found with ⟨_, rfl⟩ | ⟨different, before⟩
    · rw [moving] at getting
      cases getting
    · have other := List.mem_eraseIdx_iff_getElem?.mpr ⟨index, different, before⟩
      exact absurd getting (List.any_eq_false.mp alone worker other)

theorem supplied_step {event : SchedulerEvent Action Value}
    (stepped : Stepped scheduler state event next) (supplied : Supplied state)
    (allowed : state.leavesOne event = true) : Supplied next := by
  cases stepped with
  | submit priority =>
      intro getting
      rcases supplied getting with remaining | ⟨submit, member, bound⟩
      · exact .inl remaining
      · exact .inr ⟨submit, List.mem_append_left _ member, bound⟩
  | refuse here | pass here =>
      exact supplied.of_submit here rfl rfl rfl (by simp [Submit.bound])
  | number here => exact supplied.of_submit here rfl rfl rfl (by simp [Submit.bound])
  | put here room => exact fun _ => .inl (by simp)
  | full here full =>
      refine fun _ => .inl fun empty => ?_
      have queue : state.queue = [] := empty
      simp only [Scheduler.room, queue, List.length_nil, decide_eq_false_iff_not] at full
      omega
  | cancel | shutdown => exact supplied
  | leave here | poll here | timeout here | begin here | skip here | misfire here | act here
  | succeed here | fail here | crash here | exit here | abandon here | skipDrained here
  | misfireDrained here =>
      exact supplied.of_worker rfl rfl rfl rfl
  | get here remaining => exact fun _ => .inl remaining
  | take here front | drain here front => exact supplied_of_take front rfl allowed

end Runs

/-- Whatever callables do and whenever the scheduler is shut down, no callable is
called twice; and as long as tasks are put only while a worker is left and no
callable raises what is not an `Exception`, no accepted task is lost. -/
theorem scheduler_loses_no_task {Action Value Env : Type} (scheduler : TaskScheduler Action Env)
    (env : Env) (state : Scheduler Action Value Env) :
    (scheduler.machine.Runs (fun _ _ => True) (scheduler.initial env) state → state.started.Nodup) ∧
    (scheduler.machine.Runs (fun state event => state.attended event = true)
        (scheduler.initial env) state →
      state.started.Nodup ∧ state.LosesNone) := by
  refine ⟨started_nodup, fun runs => ⟨started_nodup runs, fun gone _ index accepted => ?_⟩⟩
  exact resolved_of_attended (ledger_of_runs runs) (attended_of_runs runs) gone accepted

/-- One worker, and callables without an effect. -/
def oneWorker : TaskScheduler Unit Unit := ⟨1, 128, fun _ _ env => env⟩

def twoWorkers : TaskScheduler Unit Unit := ⟨2, 128, fun _ _ env => env⟩

abbrev UnitEvent := SchedulerEvent Unit Unit

/-- A thread passes the check, the scheduler shuts down and its worker leaves, and
then the task enters the queue. -/
def putAfterExit : List UnitEvent :=
  [.submit 0, .check 0, .number 0 0, .shutdown, .loop 0, .empty 0, .put 0]

def taskLeftBehind : Scheduler Unit Unit Unit where
  queue := [⟨0, 0, 1, 0⟩]
  stop := true
  sequence := 1
  futures := [.pending]
  submits := [.accepted]
  workers := [.exited]
  started := []
  env := ()

/-- A callable raises `SystemExit`. -/
def raisesSystemExit : List UnitEvent :=
  [.submit 0, .check 0, .number 0 0, .put 0, .loop 0, .take 0 0,
    .begin 0 ⟨[], .error ⟨.baseException, "SystemExit"⟩⟩, .finish 0]

def taskCrashed : Scheduler Unit Unit Unit where
  queue := []
  stop := false
  sequence := 1
  futures := [.running]
  submits := [.accepted]
  workers := [.died ⟨0, 0, 1, 0⟩]
  started := [0]
  env := ()

theorem scheduler_loses_tasks :
    (oneWorker.machine.Runs (fun _ _ => True) (oneWorker.initial ()) taskLeftBehind ∧
      ¬ taskLeftBehind.LosesNone) ∧
    oneWorker.machine.Runs (fun _ _ => True) (oneWorker.initial ()) taskCrashed ∧
      ¬ taskCrashed.LosesNone := by
  have left : oneWorker.machine.play (fun _ _ => true) (oneWorker.initial ()) putAfterExit =
      some taskLeftBehind := rfl
  have crashed : oneWorker.machine.play (fun _ _ => true) (oneWorker.initial ())
      raisesSystemExit = some taskCrashed := rfl
  refine ⟨⟨Machine.runs_of_play (fun _ _ _ => trivial) left, fun loses => ?_⟩,
    Machine.runs_of_play (fun _ _ _ => trivial) crashed, fun loses => ?_⟩
  · obtain ⟨future, found, resolved⟩ := loses (by decide) (by decide) 0 rfl
    cases found
    cases resolved
  · obtain ⟨future, found, resolved⟩ := loses (by decide) (by decide) 0 rfl
    cases found
    cases resolved

/-- A task is submitted and run, and its worker leaves after the shutdown. -/
def servesOne : List UnitEvent :=
  [.submit 0, .check 0, .number 0 0, .put 0, .loop 0, .take 0 0, .begin 0 ⟨[], .ok ()⟩,
    .finish 0, .shutdown, .loop 0, .empty 0]

def taskServed : Scheduler Unit Unit Unit where
  queue := []
  stop := true
  sequence := 1
  futures := [.result ()]
  submits := [.accepted]
  workers := [.exited]
  started := [0]
  env := ()

theorem scheduler_serves_one : taskServed.started.Nodup ∧ taskServed.LosesNone := by
  have played : oneWorker.machine.play Scheduler.attended (oneWorker.initial ()) servesOne =
      some taskServed := rfl
  exact (scheduler_loses_no_task oneWorker () taskServed).2
    (Machine.runs_of_play (fun _ _ admitted => admitted) played)

/-- As long as the last task is taken only when no other worker waits for one in its
drain, or when a task is still on its way, no worker is left waiting. -/
theorem scheduler_wedges_no_worker {Action Value Env : Type}
    (scheduler : TaskScheduler Action Env) (env : Env) (state : Scheduler Action Value Env)
    (runs : scheduler.machine.Runs (fun state event => state.leavesOne event = true)
      (scheduler.initial env) state) : state.WedgesNone := by
  have supplied : Supplied state := by
    refine runs.invariant Supplied
      (fun _ _ _ kept allowed stepped => supplied_step (stepped_of_step stepped) kept allowed) ?_
    rintro ⟨worker, member, getting⟩
    rw [(List.mem_replicate.mp member).2] at getting
    cases getting
  intro quiet worker member getting
  rcases supplied ⟨worker, member, getting⟩ with remaining | ⟨submit, found, bound⟩
  · exact remaining
  · have isOver := quiet submit found
    cases submit <;> simp [Submit.bound, Submit.inProgress] at bound isOver

/-- Both workers see one task in their drain, and one of them takes it. -/
def sharesLast : List UnitEvent :=
  [.submit 0, .check 0, .number 0 0, .put 0, .shutdown, .loop 0, .loop 1, .empty 0, .empty 1,
    .take 0 0]

def workerWedged : Scheduler Unit Unit Unit where
  queue := []
  stop := true
  sequence := 1
  futures := [.pending]
  submits := [.accepted]
  workers := [.drained ⟨0, 0, 1, 0⟩, .getting]
  started := []
  env := ()

theorem scheduler_wedges_a_worker :
    twoWorkers.machine.Runs (fun _ _ => True) (twoWorkers.initial ()) workerWedged ∧
      ¬ workerWedged.WedgesNone := by
  have played : twoWorkers.machine.play (fun _ _ => true) (twoWorkers.initial ()) sharesLast =
      some workerWedged := rfl
  refine ⟨Machine.runs_of_play (fun _ _ _ => trivial) played, fun wedges => ?_⟩
  exact wedges (by decide) .getting (by simp [workerWedged]) rfl rfl

/-- Two tasks wait at the stop.  Both workers see them in their drain, and one has taken its own. -/
def drainsFirst : List UnitEvent :=
  [.submit 0, .check 0, .number 0 0, .put 0, .submit 0, .check 1, .number 1 0, .put 1, .shutdown,
    .loop 0, .loop 1, .empty 0, .empty 1, .take 0 0]

def firstDrained : Scheduler Unit Unit Unit where
  queue := [⟨0, 0, 2, 1⟩]
  stop := true
  sequence := 2
  futures := [.pending, .pending]
  submits := [.accepted, .accepted]
  workers := [.drained ⟨0, 0, 1, 0⟩, .getting]
  started := []
  env := ()

def drainsBoth : List UnitEvent :=
  drainsFirst ++ [.take 1 0, .abandon 0, .abandon 1, .empty 1, .empty 0]

def bothDrained : Scheduler Unit Unit Unit where
  queue := []
  stop := true
  sequence := 2
  futures := [.exception TaskScheduler.stoppedBeforeExecution,
    .exception TaskScheduler.stoppedBeforeExecution]
  submits := [.accepted, .accepted]
  workers := [.exited, .exited]
  started := []
  env := ()

/-- The worker that still waits finds its task, and both leave. -/
theorem scheduler_wedges_no_worker_serving : firstDrained.WedgesNone ∧ bothDrained.WedgesNone := by
  have first : twoWorkers.machine.play Scheduler.leavesOne (twoWorkers.initial ()) drainsFirst =
      some firstDrained := rfl
  have both : twoWorkers.machine.play Scheduler.leavesOne (twoWorkers.initial ()) drainsBoth =
      some bothDrained := rfl
  exact ⟨scheduler_wedges_no_worker twoWorkers () firstDrained
      (Machine.runs_of_play (fun _ _ admitted => admitted) first),
    scheduler_wedges_no_worker twoWorkers () bothDrained
      (Machine.runs_of_play (fun _ _ admitted => admitted) both)⟩

end CyreneReactor.Runtime
