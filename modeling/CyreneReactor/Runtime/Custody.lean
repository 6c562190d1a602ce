import CyreneReactor.Data.Counting
import CyreneReactor.Runtime.TaskScheduler

namespace CyreneReactor.Runtime.TaskScheduler

open Interaction

/-! Who has a task, from its submission to the end of its callable.

`Stepped` says what each event can do.  The life of one task is an `Entry` of
counts and the `Moves` between them; every step of the scheduler is, for each
task, one move or none.
-/

variable {Action Value Env : Type} {scheduler : TaskScheduler Action Env}
  {state next : Scheduler Action Value Env}

/-- What a step of the scheduler does. -/
inductive Stepped (scheduler : TaskScheduler Action Env) (state : Scheduler Action Value Env) :
    SchedulerEvent Action Value → Scheduler Action Value Env → Prop
  | submit (priority : Int) :
      Stepped scheduler state (.submit priority) { state with
        submits := state.submits ++ [.checking priority]
        futures := state.futures ++ [.pending] }
  | refuse {index : Nat} {priority : Int}
      (here : state.submits[index]? = some (.checking priority)) (stopped : state.stop = true) :
      Stepped scheduler state (.check index) (state.setSubmit index .refused)
  | pass {index : Nat} {priority : Int}
      (here : state.submits[index]? = some (.checking priority)) (running : state.stop = false) :
      Stepped scheduler state (.check index) (state.setSubmit index (.passed priority))
  | number {index : Nat} {priority : Int} {createdAt : Rat}
      (here : state.submits[index]? = some (.passed priority)) :
      Stepped scheduler state (.number index createdAt) { state.setSubmit index
          (.numbered ⟨priority, createdAt, state.sequence + 1, index⟩) with
        sequence := state.sequence + 1 }
  | put {index : Nat} {task : ScheduledTask}
      (here : state.submits[index]? = some (.numbered task))
      (room : state.room scheduler.queueSize = true) :
      Stepped scheduler state (.put index)
        { state.setSubmit index .accepted with queue := state.queue ++ [task] }
  | full {index : Nat} {task : ScheduledTask}
      (here : state.submits[index]? = some (.numbered task))
      (full : state.room scheduler.queueSize = false) :
      Stepped scheduler state (.full index) (state.setSubmit index .busy)
  | cancel {index : Nat} (accepted : state.submits[index]? = some .accepted)
      (pending : state.futures[index]? = some .pending) :
      Stepped scheduler state (.cancel index) (state.setFuture index .cancelled)
  | shutdown : Stepped scheduler state .shutdown { state with stop := true }
  | leave {index : Nat} (here : state.workers[index]? = some .checking)
      (stopped : state.stop = true) :
      Stepped scheduler state (.loop index) (state.setWorker index .draining)
  | poll {index : Nat} (here : state.workers[index]? = some .checking)
      (running : state.stop = false) :
      Stepped scheduler state (.loop index) (state.setWorker index .polling)
  | timeout {index : Nat} (here : state.workers[index]? = some .polling)
      (empty : state.queue = []) :
      Stepped scheduler state (.timeout index) (state.setWorker index .checking)
  | take {index position : Nat} {task : ScheduledTask}
      (here : state.workers[index]? = some .polling)
      (front : state.queue[position]? = some task) :
      Stepped scheduler state (.take index position)
        { state.setWorker index (.taken task) with queue := state.queue.eraseIdx position }
  | begin {index : Nat} {task : ScheduledTask} {job : Job Action Value}
      (here : state.workers[index]? = some (.taken task))
      (pending : state.futures[task.future]? = some .pending) :
      Stepped scheduler state (.begin index job)
        { (state.setWorker index (.running task job)).setFuture task.future .running with
          started := task.future :: state.started }
  | skip {index : Nat} {task : ScheduledTask} {job : Job Action Value}
      (here : state.workers[index]? = some (.taken task))
      (cancelled : state.futures[task.future]? = some .cancelled) :
      Stepped scheduler state (.begin index job) (state.setWorker index .checking)
  | misfire {index : Nat} {task : ScheduledTask} {job : Job Action Value}
      (here : state.workers[index]? = some (.taken task))
      (pending : state.futures[task.future]? ≠ some .pending)
      (cancelled : state.futures[task.future]? ≠ some .cancelled) :
      Stepped scheduler state (.begin index job) (state.setWorker index (.died task))
  | act {index : Nat} {task : ScheduledTask} {action : Action} {rest : List Action}
      {ending : Except Thrown Value}
      (here : state.workers[index]? = some (.running task ⟨action :: rest, ending⟩)) :
      Stepped scheduler state (.act index)
        { state.setWorker index (.running task ⟨rest, ending⟩) with
          env := scheduler.perform task.future action state.env }
  | succeed {index : Nat} {task : ScheduledTask} {value : Value}
      (here : state.workers[index]? = some (.running task ⟨[], .ok value⟩)) :
      Stepped scheduler state (.finish index)
        ((state.setWorker index .checking).setFuture task.future (.result value))
  | fail {index : Nat} {task : ScheduledTask} {thrown : Thrown}
      (here : state.workers[index]? = some (.running task ⟨[], .error thrown⟩))
      (caught : thrown.isException = true) :
      Stepped scheduler state (.finish index)
        ((state.setWorker index .checking).setFuture task.future (.exception thrown))
  | crash {index : Nat} {task : ScheduledTask} {thrown : Thrown}
      (here : state.workers[index]? = some (.running task ⟨[], .error thrown⟩))
      (uncaught : thrown.isException = false) :
      Stepped scheduler state (.finish index) (state.setWorker index (.died task))
  | exit {index : Nat} (here : state.workers[index]? = some .draining)
      (empty : state.queue = []) :
      Stepped scheduler state (.empty index) (state.setWorker index .exited)
  | get {index : Nat} (here : state.workers[index]? = some .draining)
      (remaining : state.queue ≠ []) :
      Stepped scheduler state (.empty index) (state.setWorker index .getting)
  | drain {index position : Nat} {task : ScheduledTask}
      (here : state.workers[index]? = some .getting)
      (front : state.queue[position]? = some task) :
      Stepped scheduler state (.take index position)
        { state.setWorker index (.drained task) with queue := state.queue.eraseIdx position }
  | abandon {index : Nat} {task : ScheduledTask}
      (here : state.workers[index]? = some (.drained task))
      (pending : state.futures[task.future]? = some .pending) :
      Stepped scheduler state (.abandon index)
        ((state.setWorker index .draining).setFuture task.future
          (.exception stoppedBeforeExecution))
  | skipDrained {index : Nat} {task : ScheduledTask}
      (here : state.workers[index]? = some (.drained task))
      (cancelled : state.futures[task.future]? = some .cancelled) :
      Stepped scheduler state (.abandon index) (state.setWorker index .draining)
  | misfireDrained {index : Nat} {task : ScheduledTask}
      (here : state.workers[index]? = some (.drained task))
      (pending : state.futures[task.future]? ≠ some .pending)
      (cancelled : state.futures[task.future]? ≠ some .cancelled) :
      Stepped scheduler state (.abandon index) (state.setWorker index (.died task))

theorem stepped_of_stepSubmit {event : SchedulerEvent Action Value}
    (stepped : scheduler.stepSubmit state event = some next) :
    Stepped scheduler state event next := by
  cases event <;> simp only [stepSubmit, reduceCtorEq] at stepped
  case submit => cases stepped; exact .submit _
  case check =>
    split at stepped
    · rename_i here
      cases stopped : state.stop with
      | true => simp [stopped] at stepped; exact stepped ▸ .refuse here stopped
      | false => simp [stopped] at stepped; exact stepped ▸ .pass here stopped
    · cases stepped
  case number =>
    split at stepped
    · cases stepped; exact .number ‹_›
    · cases stepped
  case put =>
    split at stepped
    · split at stepped
      · cases stepped; exact .put ‹_› ‹_›
      · cases stepped
    · cases stepped
  case full =>
    split at stepped
    · split at stepped
      · cases stepped
      · cases stepped; exact .full ‹_› (Bool.eq_false_iff.mpr ‹_›)
    · cases stepped

theorem stepped_of_stepLoop {event : SchedulerEvent Action Value}
    (stepped : scheduler.stepLoop state event = some next) :
    Stepped scheduler state event next := by
  cases event <;> simp only [stepLoop, reduceCtorEq] at stepped
  case loop =>
    split at stepped
    · rename_i here
      cases stopped : state.stop with
      | true => simp [stopped] at stepped; exact stepped ▸ .leave here stopped
      | false => simp [stopped] at stepped; exact stepped ▸ .poll here stopped
    · cases stepped
  case timeout =>
    split at stepped
    · split at stepped
      · cases stepped; exact .timeout ‹_› (by simpa using ‹state.queue.isEmpty = true›)
      · cases stepped
    · cases stepped
  case begin =>
    split at stepped
    · split at stepped
      · cases stepped; exact .begin ‹_› ‹_›
      · cases stepped; exact .skip ‹_› ‹_›
      · cases stepped; exact .misfire ‹_› ‹_› ‹_›
    · cases stepped
  case act =>
    split at stepped
    · cases stepped; exact .act ‹_›
    · cases stepped
  case finish =>
    split at stepped
    · cases stepped; exact .succeed ‹_›
    · split at stepped
      · cases stepped; exact .fail ‹_› ‹_›
      · cases stepped; exact .crash ‹_› (Bool.eq_false_iff.mpr ‹_›)
    · cases stepped

theorem stepped_of_stepDrain {event : SchedulerEvent Action Value}
    (stepped : stepDrain state event = some next) : Stepped scheduler state event next := by
  cases event <;> simp only [stepDrain, reduceCtorEq] at stepped
  case empty =>
    split at stepped
    · rename_i here
      cases queue : state.queue with
      | nil => simp [queue] at stepped; exact stepped ▸ .exit here queue
      | cons first rest => simp [queue] at stepped; exact stepped ▸ .get here (by simp [queue])
    · cases stepped
  case abandon =>
    split at stepped
    · split at stepped
      · cases stepped; exact .abandon ‹_› ‹_›
      · cases stepped; exact .skipDrained ‹_› ‹_›
      · cases stepped; exact .misfireDrained ‹_› ‹_› ‹_›
    · cases stepped

theorem stepped_of_step {event : SchedulerEvent Action Value}
    (stepped : scheduler.step state event = some next) : Stepped scheduler state event next := by
  cases event <;> simp only [step] at stepped
  case cancel =>
    simp only [stepCancel] at stepped
    split at stepped
    · cases stepped; exact .cancel ‹_› ‹_›
    · cases stepped
  case shutdown => cases stepped; exact .shutdown
  case take =>
    simp only [stepTake] at stepped
    split at stepped
    · cases stepped; exact .take ‹_› (state.front?_eq_some ‹_›)
    · cases stepped; exact .drain ‹_› (state.front?_eq_some ‹_›)
    · cases stepped
  case submit | check | number | put | full => exact stepped_of_stepSubmit stepped
  case empty | abandon => exact stepped_of_stepDrain stepped
  all_goals exact stepped_of_stepLoop stepped

end TaskScheduler

@[simp]
def Worker.holds {Action Value : Type} (index : Nat) : Worker Action Value → Bool
  | .taken task | .drained task => task.future == index
  | _ => false

/-- Whether the worker called the callable and has not told its future the end. -/
@[simp]
def Worker.runs {Action Value : Type} (index : Nat) : Worker Action Value → Bool
  | .running task _ | .died task => task.future == index
  | _ => false

/-- Where one task is, and how often. -/
@[ext]
structure Entry (Value : Type) where
  future : Option (FutureState Value)
  accepted : Bool
  queued : Nat
  held : Nat
  run : Nat
  begun : Nat

namespace Entry

variable {Value : Type}

/-- A task that is not cancelled is in one place, and in none once its future is resolved. -/
def Balanced (entry : Entry Value) : Prop :=
  match entry.future with
  | none => entry.accepted = false ∧ entry.queued + entry.held = 0 ∧ entry.run = 0 ∧ entry.begun = 0
  | some .pending => entry.queued + entry.held = entry.accepted.toNat ∧ entry.run = 0 ∧ entry.begun = 0
  | some .cancelled => entry.accepted = true ∧ entry.queued + entry.held ≤ 1 ∧ entry.run = 0 ∧
      entry.begun = 0
  | some .running => entry.accepted = true ∧ entry.queued + entry.held = 0 ∧ entry.run = 1 ∧
      entry.begun = 1
  | some (.result _) | some (.exception _) => entry.accepted = true ∧
      entry.queued + entry.held = 0 ∧ entry.run = 0 ∧ entry.begun ≤ 1

/-- The life of one task. -/
inductive Moves (entry : Entry Value) : Entry Value → Prop
  | submit (absent : entry.future = none) : Moves entry { entry with future := some .pending }
  | put (waiting : entry.accepted = false) (known : entry.future ≠ none) :
      Moves entry { entry with accepted := true, queued := entry.queued + 1 }
  | cancel (accepted : entry.accepted = true) (pending : entry.future = some .pending) :
      Moves entry { entry with future := some .cancelled }
  | take (queued : 0 < entry.queued) :
      Moves entry { entry with queued := entry.queued - 1, held := entry.held + 1 }
  | begin (held : 0 < entry.held) (pending : entry.future = some .pending) :
      Moves entry { entry with
        future := some .running, held := entry.held - 1, run := entry.run + 1
        begun := entry.begun + 1 }
  | skip (held : 0 < entry.held) (cancelled : entry.future = some .cancelled) :
      Moves entry { entry with held := entry.held - 1 }
  | succeed {value : Value} (run : 0 < entry.run) :
      Moves entry { entry with future := some (.result value), run := entry.run - 1 }
  | fail {thrown : Thrown} (run : 0 < entry.run) :
      Moves entry { entry with future := some (.exception thrown), run := entry.run - 1 }
  | abandon {thrown : Thrown} (held : 0 < entry.held) (pending : entry.future = some .pending) :
      Moves entry { entry with future := some (.exception thrown), held := entry.held - 1 }

theorem Moves.balanced {entry next : Entry Value} (moves : entry.Moves next)
    (balanced : entry.Balanced) : next.Balanced := by
  obtain ⟨future, accepted, queued, held, run, begun⟩ := entry
  rcases future with _ | _ | _ | _ | _ | _ <;> cases accepted <;> cases moves <;>
    simp [Balanced] at * <;> omega

theorem Balanced.future_of_run {entry : Entry Value} (balanced : entry.Balanced)
    (run : 0 < entry.run) : entry.future = some .running := by
  obtain ⟨future, accepted, queued, held, runs, begun⟩ := entry
  rcases future with _ | _ | _ | _ | _ | _ <;> simp [Balanced] at * <;> omega

theorem Balanced.run_le {entry : Entry Value} (balanced : entry.Balanced) : entry.run ≤ 1 := by
  obtain ⟨future, accepted, queued, held, run, begun⟩ := entry
  rcases future with _ | _ | _ | _ | _ | _ <;> simp [Balanced] at * <;> omega

theorem Balanced.begun_le {entry : Entry Value} (balanced : entry.Balanced) : entry.begun ≤ 1 := by
  obtain ⟨future, accepted, queued, held, run, begun⟩ := entry
  rcases future with _ | _ | _ | _ | _ | _ <;> simp [Balanced] at * <;> omega

/-- Whoever holds a task finds its future pending or cancelled. -/
theorem Balanced.future_of_held {entry : Entry Value} (balanced : entry.Balanced)
    (held : 0 < entry.queued + entry.held) :
    entry.future = some .pending ∨ entry.future = some .cancelled := by
  obtain ⟨future, accepted, queued, holders, run, begun⟩ := entry
  rcases future with _ | _ | _ | _ | _ | _ <;> simp [Balanced] at * <;> omega

end Entry

namespace Scheduler

variable {Action Value Env : Type} (state : Scheduler Action Value Env)

def entry (index : Nat) : Entry Value where
  future := state.futures[index]?
  accepted := decide (state.submits[index]? = some .accepted)
  queued := state.queue.countP fun task => task.future == index
  held := state.workers.countP fun worker => worker.holds index
  run := state.workers.countP fun worker => worker.runs index
  begun := state.started.count index

variable {state} {place index : Nat} {old new : Worker Action Value}

theorem entry_setWorker (here : state.workers[place]? = some old) (new : Worker Action Value)
    (index : Nat) :
    (state.setWorker place new).entry index = { state.entry index with
      held := (state.entry index).held + (new.holds index).toNat - (old.holds index).toNat
      run := (state.entry index).run + (new.runs index).toNat - (old.runs index).toNat } := by
  have held := Counting.countP_set (fun worker => worker.holds index) here new
  have run := Counting.countP_set (fun worker => worker.runs index) here new
  refine Entry.ext rfl rfl rfl ?_ ?_ rfl
  · simp only [entry, setWorker]
    omega
  · simp only [entry, setWorker]
    omega

/-- A worker that moves without a task leaves every task where it is. -/
theorem entry_setWorker_idle (here : state.workers[place]? = some old)
    (held : old.holds index = new.holds index) (run : old.runs index = new.runs index) :
    (state.setWorker place new).entry index = state.entry index := by
  rw [entry_setWorker here, held, run]
  simp

theorem entry_setSubmit {submit answer : Submit} (here : state.submits[place]? = some submit)
    (before : submit ≠ .accepted) (after : answer ≠ .accepted) :
    (state.setSubmit place answer).entry index = state.entry index := by
  refine Entry.ext rfl ?_ rfl rfl rfl rfl
  by_cases same : place = index
  · subst same
    have unaccepted : state.submits[place]? ≠ some .accepted := by rw [here]; simp [before]
    have bound := (List.getElem?_eq_some_iff.mp here).1
    simp only [entry, setSubmit, List.getElem?_set_self bound, Option.some.injEq, after, unaccepted]
  · simp only [entry, setSubmit, List.getElem?_set_ne same]

theorem entry_setFuture {earlier future : FutureState Value}
    (here : state.futures[place]? = some earlier) :
    (state.setFuture place future).entry place =
      { state.entry place with future := some future } := by
  refine Entry.ext ?_ rfl rfl rfl rfl rfl
  exact List.getElem?_set_self (List.getElem?_eq_some_iff.mp here).1

theorem entry_setFuture_ne {future : FutureState Value} (different : place ≠ index) :
    (state.setFuture place future).entry index = state.entry index :=
  Entry.ext (List.getElem?_set_ne different) rfl rfl rfl rfl rfl

theorem held_pos {task : ScheduledTask} (here : state.workers[place]? = some old)
    (holds : old.holds task.future = true) : 0 < (state.entry task.future).held :=
  List.countP_pos_iff.mpr ⟨old, List.mem_of_getElem? here, holds⟩

theorem run_pos {task : ScheduledTask} (here : state.workers[place]? = some old)
    (runs : old.runs task.future = true) : 0 < (state.entry task.future).run :=
  List.countP_pos_iff.mpr ⟨old, List.mem_of_getElem? here, runs⟩

theorem queued_pos {task : ScheduledTask} {position : Nat}
    (front : state.queue[position]? = some task) : 0 < (state.entry task.future).queued :=
  List.countP_pos_iff.mpr ⟨task, List.mem_of_getElem? front, by simp⟩

/-- Every task is where its future says, and a submission knows its own task. -/
structure Ledger (state : Scheduler Action Value Env) : Prop where
  balanced : ∀ index, (state.entry index).Balanced
  own : ∀ {index task}, state.submits[index]? = some (Submit.numbered task) → task.future = index
  aligned : state.futures.length = state.submits.length

/-- A worker that holds a task can start it or find it cancelled. -/
theorem Ledger.future_of_held {task : ScheduledTask} (ledger : state.Ledger)
    (here : state.workers[place]? = some old) (holds : old.holds task.future = true) :
    state.futures[task.future]? = some .pending ∨ state.futures[task.future]? = some .cancelled :=
  (ledger.balanced task.future).future_of_held (Nat.add_pos_right _ (held_pos here holds))

end Scheduler

namespace TaskScheduler

variable {Action Value Env : Type} {scheduler : TaskScheduler Action Env}
  {state next : Scheduler Action Value Env}

open Scheduler

section Moves

variable {place position : Nat} {old : Worker Action Value} (new : Worker Action Value)
  {task : ScheduledTask}

theorem moves_of_submit (priority : Int) (index : Nat) :
    let submitted : Scheduler Action Value Env := { state with
      submits := state.submits ++ [.checking priority]
      futures := state.futures ++ [.pending] }
    submitted.entry index = state.entry index ∨
      (state.entry index).Moves (submitted.entry index) := by
  intro submitted
  have accepted : (submitted.entry index).accepted = (state.entry index).accepted := by
    by_cases bound : index < state.submits.length
    · simp [submitted, entry, List.getElem?_append_left bound]
    · have outside : state.submits.length ≤ index := by omega
      simp [submitted, entry, List.getElem?_append_right outside, List.getElem?_eq_none outside,
        List.getElem?_singleton]
  rcases Nat.lt_trichotomy index state.futures.length with before | here | after
  · exact .inl (Entry.ext (List.getElem?_append_left before) accepted rfl rfl rfl rfl)
  · have absent : (state.entry index).future = none := List.getElem?_eq_none (by omega)
    have known : submitted.entry index = { state.entry index with future := some .pending } := by
      refine Entry.ext ?_ accepted rfl rfl rfl rfl
      simp [submitted, entry, here]
    exact .inr (known ▸ .submit absent)
  · refine .inl (Entry.ext ?_ accepted rfl rfl rfl rfl)
    have outside : (state.futures ++ [FutureState.pending]).length ≤ index := by
      simpa using Nat.succ_le_of_lt after
    simp only [submitted, entry, List.getElem?_eq_none outside,
      List.getElem?_eq_none (Nat.le_of_lt after)]

theorem moves_of_put (ledger : state.Ledger) {place : Nat}
    (here : state.submits[place]? = some (Submit.numbered task)) (index : Nat) :
    let put : Scheduler Action Value Env :=
      { state.setSubmit place .accepted with queue := state.queue ++ [task] }
    put.entry index = state.entry index ∨ (state.entry index).Moves (put.entry index) := by
  intro put
  have own := ledger.own here
  by_cases same : place = index
  · subst same
    right
    have bound := (List.getElem?_eq_some_iff.mp here).1
    have waiting : (state.entry place).accepted = false := by simp [entry, here]
    have known : (state.entry place).future ≠ none := by
      have aligned := ledger.aligned
      simp only [entry, ne_eq, List.getElem?_eq_none_iff]
      omega
    have accepted : put.entry place = { state.entry place with
        accepted := true, queued := (state.entry place).queued + 1 } := by
      refine Entry.ext rfl ?_ ?_ rfl rfl rfl
      · simp [put, entry, setSubmit, bound]
      · simp [put, entry, own]
    exact accepted ▸ .put waiting known
  · left
    refine Entry.ext rfl ?_ ?_ rfl rfl rfl
    · simp only [put, entry, setSubmit, List.getElem?_set_ne same]
    · have different : task.future ≠ index := own ▸ same
      simp [put, entry, different]

theorem moves_of_begin (here : state.workers[place]? = some (.taken task))
    (pending : state.futures[task.future]? = some .pending) (job : Job Action Value) :
    (state.entry task.future).Moves
      (Scheduler.entry { (state.setWorker place (.running task job)).setFuture task.future .running with
        started := task.future :: state.started } task.future) := by
  have moved := entry_setWorker here (.running task job) task.future
  have bound := (List.getElem?_eq_some_iff.mp pending).1
  have begun : Scheduler.entry { (state.setWorker place (.running task job)).setFuture task.future
        .running with started := task.future :: state.started } task.future =
      { state.entry task.future with
        future := some .running
        held := (state.entry task.future).held - 1
        run := (state.entry task.future).run + 1
        begun := (state.entry task.future).begun + 1 } := by
    simp only [Worker.holds, Worker.runs, beq_self_eq_true, Bool.toNat_true, Bool.toNat_false,
      Nat.add_zero, Nat.sub_zero] at moved
    have held := congrArg Entry.held moved
    have run := congrArg Entry.run moved
    exact Entry.ext (List.getElem?_set_self bound) rfl rfl held run List.count_cons_self
  exact begun ▸ .begin (held_pos here (by simp)) pending

/-- A worker drops a task that was cancelled. -/
theorem moves_of_skip (here : state.workers[place]? = some old)
    (holds : ∀ index, old.holds index = (task.future == index))
    (idle : ∀ index, new.holds index = false) (before : ∀ index, old.runs index = false)
    (after : ∀ index, new.runs index = false)
    (cancelled : state.futures[task.future]? = some .cancelled) (index : Nat) :
    (state.setWorker place new).entry index = state.entry index ∨
      (state.entry index).Moves ((state.setWorker place new).entry index) := by
  by_cases same : task.future = index
  · subst same
    right
    rw [entry_setWorker here, holds, idle, before, after]
    simpa using Entry.Moves.skip (held_pos here ((holds _).trans (beq_self_eq_true _))) cancelled
  · refine .inl (entry_setWorker_idle here ?_ ((before index).trans (after index).symm))
    rw [holds, idle, beq_eq_false_iff_ne.mpr same]

/-- A worker tells a future how its callable ended. -/
theorem moves_of_finish (ledger : state.Ledger) {job : Job Action Value} {future : FutureState Value}
    (here : state.workers[place]? = some (.running task job))
    (ending : (∃ value, future = .result value) ∨ ∃ thrown, future = .exception thrown)
    (index : Nat) :
    let finished := (state.setWorker place .checking).setFuture task.future future
    finished.entry index = state.entry index ∨ (state.entry index).Moves (finished.entry index) := by
  intro finished
  by_cases same : task.future = index
  · subst same
    right
    have run : 0 < (state.entry task.future).run := run_pos here (by simp)
    have running : (state.setWorker place .checking).futures[task.future]? = some .running :=
      (ledger.balanced task.future).future_of_run run
    rw [entry_setFuture running, entry_setWorker here]
    rcases ending with ⟨value, rfl⟩ | ⟨thrown, rfl⟩
    · simpa using Entry.Moves.succeed run
    · simpa using Entry.Moves.fail run
  · left
    rw [entry_setFuture_ne same]
    exact entry_setWorker_idle here (by simp) (by simp [same])

theorem moves_of_abandon (here : state.workers[place]? = some (.drained task))
    (pending : state.futures[task.future]? = some .pending) (index : Nat) :
    let abandoned := (state.setWorker place .draining).setFuture task.future
      (.exception stoppedBeforeExecution)
    abandoned.entry index = state.entry index ∨
      (state.entry index).Moves (abandoned.entry index) := by
  intro abandoned
  by_cases same : task.future = index
  · subst same
    right
    have waiting : (state.setWorker place .draining).futures[task.future]? = some .pending := pending
    rw [entry_setFuture waiting, entry_setWorker here]
    simpa using Entry.Moves.abandon (held_pos here (by simp)) pending
  · left
    rw [entry_setFuture_ne same]
    exact entry_setWorker_idle here (by simp [same]) (by simp)

/-- Taking a task off the queue moves that task to the worker. -/
theorem moves_of_take (here : state.workers[place]? = some old)
    (front : state.queue[position]? = some task) (idle : ∀ index, old.holds index = false)
    (stopped : ∀ index, old.runs index = new.runs index)
    (holds : ∀ index, new.holds index = (task.future == index)) (index : Nat) :
    let taken : Scheduler Action Value Env :=
      { state.setWorker place new with queue := state.queue.eraseIdx position }
    taken.entry index = state.entry index ∨ (state.entry index).Moves (taken.entry index) := by
  intro taken
  have moved := entry_setWorker here new index
  have counted := Counting.countP_eraseIdx (fun task => task.future == index) front
  rw [idle, stopped, holds] at moved
  by_cases same : task.future = index
  · subst same
    right
    have queued := queued_pos front
    have taken_entry : taken.entry task.future = { state.entry task.future with
        queued := (state.entry task.future).queued - 1
        held := (state.entry task.future).held + 1 } := by
      refine Entry.ext rfl rfl ?_ ?_ ?_ rfl
      · simp only [taken, entry, beq_self_eq_true, Bool.toNat_true] at counted ⊢
        omega
      · simpa [entry] using congrArg Entry.held moved
      · simpa [entry] using congrArg Entry.run moved
    rw [taken_entry]
    exact .take queued
  · left
    have different : (task.future == index) = false := beq_eq_false_iff_ne.mpr same
    rw [different] at moved counted
    refine Entry.ext rfl rfl ?_ ?_ ?_ rfl
    · simpa [taken, entry] using counted
    · simpa [entry] using congrArg Entry.held moved
    · simpa [entry] using congrArg Entry.run moved

end Moves

theorem Stepped.moves {event : SchedulerEvent Action Value}
    (stepped : Stepped scheduler state event next) (ledger : state.Ledger) (index : Nat) :
    next.entry index = state.entry index ∨ (state.entry index).Moves (next.entry index) := by
  cases stepped with
  | submit priority => exact moves_of_submit priority index
  | refuse here stopped => exact .inl (entry_setSubmit here (by simp) (by simp))
  | pass here running => exact .inl (entry_setSubmit here (by simp) (by simp))
  | number here => exact .inl (entry_setSubmit here (by simp) (by simp))
  | put here room => exact moves_of_put ledger here index
  | full here full => exact .inl (entry_setSubmit here (by simp) (by simp))
  | @cancel place accepted pending =>
      by_cases same : place = index
      · subst same
        rw [entry_setFuture pending]
        exact .inr (.cancel (by simpa [entry] using accepted) pending)
      · exact .inl (entry_setFuture_ne same)
  | shutdown => exact .inl rfl
  | leave here stopped => exact .inl (entry_setWorker_idle here rfl rfl)
  | poll here running => exact .inl (entry_setWorker_idle here rfl rfl)
  | timeout here empty => exact .inl (entry_setWorker_idle here rfl rfl)
  | take here front =>
      exact moves_of_take (.taken _) here front (fun _ => rfl) (fun _ => rfl) (fun _ => rfl) index
  | @begin place task job here pending =>
      by_cases same : task.future = index
      · subst same
        exact .inr (moves_of_begin here pending job)
      · left
        have idle : (state.setWorker place (.running task job)).entry index = state.entry index :=
          entry_setWorker_idle here (by simp [same]) (by simp [same])
        have held := congrArg Entry.held idle
        have run := congrArg Entry.run idle
        exact Entry.ext (List.getElem?_set_ne same) rfl rfl held run (List.count_cons_of_ne same)
  | @skip place task job here cancelled =>
      exact moves_of_skip .checking here (by simp) (by simp) (by simp) (by simp) cancelled index
  | misfire here pending cancelled =>
      rcases ledger.future_of_held here (beq_self_eq_true _) with found | found
      · exact absurd found pending
      · exact absurd found cancelled
  | act here => exact .inl (entry_setWorker_idle here rfl rfl)
  | succeed here => exact moves_of_finish ledger here (.inl ⟨_, rfl⟩) index
  | fail here caught => exact moves_of_finish ledger here (.inr ⟨_, rfl⟩) index
  | crash here uncaught => exact .inl (entry_setWorker_idle here rfl rfl)
  | exit here empty => exact .inl (entry_setWorker_idle here rfl rfl)
  | get here remaining => exact .inl (entry_setWorker_idle here rfl rfl)
  | drain here front =>
      exact moves_of_take (.drained _) here front (fun _ => rfl) (fun _ => rfl) (fun _ => rfl) index
  | @abandon place task here pending => exact moves_of_abandon here pending index
  | skipDrained here cancelled =>
      exact moves_of_skip .draining here (by simp) (by simp) (by simp) (by simp) cancelled index
  | misfireDrained here pending cancelled =>
      rcases ledger.future_of_held here (beq_self_eq_true _) with found | found
      · exact absurd found pending
      · exact absurd found cancelled

theorem Stepped.ledger {event : SchedulerEvent Action Value}
    (stepped : Stepped scheduler state event next) (ledger : state.Ledger) : next.Ledger := by
  refine ⟨fun index => ?_, ?_, ?_⟩
  · rcases stepped.moves ledger index with same | moves
    · exact same ▸ ledger.balanced index
    · exact moves.balanced (ledger.balanced index)
  · intro index task here
    have other {place : Nat} {answer : Submit} (answered : ∀ task, answer ≠ .numbered task)
        (here : (state.setSubmit place answer).submits[index]? = some (.numbered task)) :
        task.future = index := by
      rcases Counting.getElem?_set_cases here with ⟨rfl, same⟩ | ⟨_, before⟩
      · exact absurd same.symm (answered task)
      · exact ledger.own before
    cases stepped with
    | submit priority =>
        rcases Counting.getElem?_append_singleton_cases here with before | ⟨_, last⟩
        · exact ledger.own before
        · cases last
    | refuse | pass | full | put => exact other (by simp) here
    | number found =>
        rcases Counting.getElem?_set_cases here with ⟨rfl, same⟩ | ⟨_, before⟩
        · cases same; rfl
        · exact ledger.own before
    | _ => exact ledger.own here
  · have aligned := ledger.aligned
    cases stepped <;> simpa [setSubmit, setFuture, setWorker] using aligned

section Runs

variable {env : Env} {allowed : Scheduler Action Value Env → SchedulerEvent Action Value → Prop}

theorem ledger_initial : (scheduler.initial env : Scheduler Action Value Env).Ledger := by
  refine ⟨fun index => ?_, fun here => ?_, rfl⟩
  · have idle : ∀ holds : Worker Action Value → Bool, holds .checking = false →
        (List.replicate scheduler.maxWorkers Worker.checking).countP holds = 0 := by
      intro holds free
      simp [List.countP_replicate, free]
    simp [Entry.Balanced, Scheduler.entry, initial, idle]
  · simp [initial] at here

theorem ledger_of_runs (runs : scheduler.machine.Runs allowed (scheduler.initial env) state) :
    state.Ledger :=
  runs.invariant Scheduler.Ledger
    (fun _ _ _ ledger _ stepped => (stepped_of_step stepped).ledger ledger) ledger_initial

end Runs

section Frame

variable {event : SchedulerEvent Action Value} {place : Nat} {task : ScheduledTask}
  {job : Job Action Value}

/-- A worker that runs a callable ran it before, took up its next action or began it. -/
theorem Stepped.running_cases (stepped : Stepped scheduler state event next)
    (here : next.workers[place]? = some (.running task job)) :
    state.workers[place]? = some (.running task job) ∨
    (event = .begin place job ∧ state.workers[place]? = some (.taken task) ∧
      state.futures[task.future]? = some .pending) ∨
    (event = .act place ∧ ∃ action,
      state.workers[place]? = some (.running task ⟨action :: job.actions, job.ending⟩)) := by
  have other {index : Nat} {new : Worker Action Value} (different : ∀ job, new ≠ .running task job)
      (here : (state.workers.set index new)[place]? = some (.running task job)) :
      state.workers[place]? = some (.running task job) := by
    rcases Counting.getElem?_set_cases here with ⟨_, same⟩ | ⟨_, before⟩
    · exact absurd same.symm (different job)
    · exact before
  cases stepped with
  | submit | refuse | pass | number | put | full | cancel | shutdown => exact .inl here
  | begin found pending =>
      rcases Counting.getElem?_set_cases here with ⟨rfl, same⟩ | ⟨_, before⟩
      · cases same
        exact .inr (.inl ⟨rfl, found, pending⟩)
      · exact .inl before
  | act found =>
      rcases Counting.getElem?_set_cases here with ⟨rfl, same⟩ | ⟨_, before⟩
      · cases same
        exact .inr (.inr ⟨rfl, _, found⟩)
      · exact .inl before
  | leave | poll | timeout | take | skip | misfire | succeed | fail | crash | exit | get | drain
  | abandon | skipDrained | misfireDrained => exact .inl (other (by simp) here)

theorem Stepped.drained_cases (stepped : Stepped scheduler state event next)
    (here : next.workers[place]? = some (.drained task)) :
    state.workers[place]? = some (.drained task) ∨
    ∃ position, event = .take place position ∧ state.workers[place]? = some .getting := by
  have other {index : Nat} {new : Worker Action Value} (different : new ≠ .drained task)
      (here : (state.workers.set index new)[place]? = some (.drained task)) :
      state.workers[place]? = some (.drained task) := by
    rcases Counting.getElem?_set_cases here with ⟨_, same⟩ | ⟨_, before⟩
    · exact absurd same.symm different
    · exact before
  cases stepped with
  | submit | refuse | pass | number | put | full | cancel | shutdown => exact .inl here
  | drain found front =>
      rcases Counting.getElem?_set_cases here with ⟨rfl, _⟩ | ⟨_, before⟩
      · exact .inr ⟨_, rfl, found⟩
      · exact .inl before
  | leave | poll | timeout | take | begin | skip | misfire | act | succeed | fail | crash | exit
  | get | abandon | skipDrained | misfireDrained => exact .inl (other (by simp) here)

/-- A worker dies of what its callable raises. -/
theorem Stepped.died_cases (stepped : Stepped scheduler state event next) (ledger : state.Ledger)
    (here : next.workers[place]? = some (.died task)) :
    state.workers[place]? = some (.died task) ∨
    ∃ thrown, state.workers[place]? = some (.running task ⟨[], .error thrown⟩) := by
  have other {index : Nat} {new : Worker Action Value} (different : new ≠ .died task)
      (here : (state.workers.set index new)[place]? = some (.died task)) :
      state.workers[place]? = some (.died task) := by
    rcases Counting.getElem?_set_cases here with ⟨_, same⟩ | ⟨_, before⟩
    · exact absurd same.symm different
    · exact before
  cases stepped with
  | submit | refuse | pass | number | put | full | cancel | shutdown => exact .inl here
  | crash found =>
      rcases Counting.getElem?_set_cases here with ⟨rfl, same⟩ | ⟨_, before⟩
      · cases same
        exact .inr ⟨_, found⟩
      · exact .inl before
  | misfire found unpending uncancelled | misfireDrained found unpending uncancelled =>
      rcases ledger.future_of_held found (beq_self_eq_true _) with pending | cancelled
      · exact absurd pending unpending
      · exact absurd cancelled uncancelled
  | leave | poll | timeout | take | begin | skip | act | succeed | fail | exit | get | drain
  | abandon | skipDrained => exact .inl (other (by simp) here)

/-- Only the action of a callable changes what callables share. -/
theorem Stepped.env_cases (stepped : Stepped scheduler state event next) :
    next.env = state.env ∧ (∀ place, event ≠ .act place) ∨
    ∃ place task action rest ending, event = .act place ∧
      state.workers[place]? = some (.running task ⟨action :: rest, ending⟩) ∧
      next.workers = state.workers.set place (.running task ⟨rest, ending⟩) ∧
      next.env = scheduler.perform task.future action state.env := by
  cases stepped with
  | act here => exact .inr ⟨_, _, _, _, _, rfl, here, rfl, rfl⟩
  | _ => exact .inl ⟨rfl, by simp⟩

/-- A future is resolved by the end of its callable, in the drain or by its caller. -/
theorem Stepped.resolved_cases (stepped : Stepped scheduler state event next) {index : Nat}
    {future : FutureState Value} (found : next.futures[index]? = some future)
    (resolved : future.resolved = true) :
    state.futures[index]? = some future ∨ event = .cancel index ∨
    ∃ place task, task.future = index ∧
      ((event = .finish place ∧
        ((∃ value, state.workers[place]? = some (.running task ⟨[], .ok value⟩)) ∨
          ∃ thrown, state.workers[place]? = some (.running task ⟨[], .error thrown⟩) ∧
            thrown.isException = true)) ∨
      event = .abandon place ∧ state.workers[place]? = some (.drained task) ∧
        state.futures[task.future]? = some .pending) := by
  cases stepped with
  | submit priority =>
      rcases Counting.getElem?_append_singleton_cases found with before | ⟨_, rfl⟩
      · exact .inl before
      · cases resolved
  | cancel accepted pending =>
      rcases Counting.getElem?_set_cases found with ⟨rfl, _⟩ | ⟨_, before⟩
      · exact .inr (.inl rfl)
      · exact .inl before
  | begin here pending =>
      rcases Counting.getElem?_set_cases found with ⟨_, rfl⟩ | ⟨_, before⟩
      · cases resolved
      · exact .inl before
  | succeed here =>
      rcases Counting.getElem?_set_cases found with ⟨same, _⟩ | ⟨_, before⟩
      · exact .inr (.inr ⟨_, _, same.symm, .inl ⟨rfl, .inl ⟨_, here⟩⟩⟩)
      · exact .inl before
  | fail here caught =>
      rcases Counting.getElem?_set_cases found with ⟨same, _⟩ | ⟨_, before⟩
      · exact .inr (.inr ⟨_, _, same.symm, .inl ⟨rfl, .inr ⟨_, here, caught⟩⟩⟩)
      · exact .inl before
  | abandon here pending =>
      rcases Counting.getElem?_set_cases found with ⟨same, _⟩ | ⟨_, before⟩
      · exact .inr (.inr ⟨_, _, same.symm, .inr ⟨rfl, here, pending⟩⟩)
      · exact .inl before
  | _ => exact .inl found

/-- Only a new future is pending that was not pending before. -/
theorem Stepped.pending_cases (stepped : Stepped scheduler state event next) {index : Nat}
    (found : next.futures[index]? = some .pending) :
    state.futures[index]? = some .pending ∨ index = state.futures.length := by
  cases stepped with
  | submit priority =>
      rcases Counting.getElem?_append_singleton_cases found with before | ⟨last, _⟩
      · exact .inl before
      · exact .inr last
  | cancel | begin | succeed | fail | abandon =>
      rcases Counting.getElem?_set_cases found with ⟨_, same⟩ | ⟨_, before⟩
      · cases same
      · exact .inl before
  | _ => exact .inl found

/-- What `submit` returned or raised stands. -/
theorem Stepped.submit_kept (stepped : Stepped scheduler state event next) {index : Nat}
    {submit : Submit} (found : state.submits[index]? = some submit)
    (isOver : submit = .accepted ∨ submit = .busy ∨ submit = .refused) :
    next.submits[index]? = some submit := by
  have other {place : Nat} {earlier answer : Submit}
      (here : state.submits[place]? = some earlier) (different : submit ≠ earlier) :
      (state.submits.set place answer)[index]? = some submit := by
    have apart : place ≠ index := fun same => by
      subst same
      rw [found, Option.some.injEq] at here
      exact different here
    rw [List.getElem?_set_ne apart, found]
  cases stepped with
  | submit priority =>
      rw [List.getElem?_append_left (List.getElem?_eq_some_iff.mp found).1]
      exact found
  | refuse here | pass here | number here | put here | full here =>
      exact other here (by rcases isOver with rfl | rfl | rfl <;> simp)
  | _ => exact found

theorem Stepped.submits_length (stepped : Stepped scheduler state event next)
    (other : ∀ priority, event ≠ .submit priority) :
    next.submits.length = state.submits.length := by
  cases stepped with
  | submit priority => exact absurd rfl (other priority)
  | refuse | pass | number | put | full => exact List.length_set
  | _ => rfl

/-- A task is run by one worker. -/
theorem runs_unique (ledger : state.Ledger) {first second : Nat} {left right : Worker Action Value}
    {index : Nat} (here : state.workers[first]? = some left)
    (there : state.workers[second]? = some right) (leftRuns : left.runs index = true)
    (rightRuns : right.runs index = true) : first = second := by
  by_contra different
  have erased := Counting.countP_eraseIdx (fun worker => worker.runs index) here
  have member := List.mem_eraseIdx_iff_getElem?.mpr ⟨second, Ne.symm different, there⟩
  have counted : 0 < (state.workers.eraseIdx first).countP fun worker => worker.runs index :=
    List.countP_pos_iff.mpr ⟨right, member, rightRuns⟩
  have balanced := ledger.balanced index
  have run : (state.entry index).run =
      state.workers.countP fun worker => worker.runs index := rfl
  have single : (state.entry index).run ≤ 1 := balanced.run_le
  rw [leftRuns, Bool.toNat_true] at erased
  omega

end Frame

end TaskScheduler

end CyreneReactor.Runtime
