import Mathlib.Data.Rat.Defs
import CyreneReactor.Interaction.Machine
import CyreneReactor.Runtime.Exceptions

namespace CyreneReactor.Runtime

open Interaction

/-! `TaskScheduler`: worker threads that take tasks off a priority queue.

Any number of threads submit, cancel and shut down.  A callable is known by what
it turns out to do: its actions on what it shares with other threads, one by
one, and how it ends.  The future of a submission is known by the place of the
thread that submits.
-/

structure ScheduledTask where
  priority : Int
  createdAt : Rat
  sequence : Nat
  future : Nat
deriving DecidableEq

/-- The order of the queue: priority, then time of creation. -/
def ScheduledTask.before (left right : ScheduledTask) : Bool :=
  decide (left.priority < right.priority ∨
    left.priority = right.priority ∧ left.createdAt < right.createdAt)

inductive FutureState (Value : Type) where
  | pending
  | cancelled
  | running
  | result (value : Value)
  | exception (thrown : Thrown)

def FutureState.resolved {Value : Type} : FutureState Value → Bool
  | pending | running => false
  | cancelled | result _ | exception _ => true

/-- What a callable still does. -/
structure Job (Action Value : Type) where
  actions : List Action
  ending : Except Thrown Value

/-- Where a worker stands in `_worker_loop`. -/
inductive Worker (Action Value : Type) where
  | checking
  | polling
  | taken (task : ScheduledTask)
  | running (task : ScheduledTask) (job : Job Action Value)
  | draining
  | getting
  | drained (task : ScheduledTask)
  | exited
  | died (task : ScheduledTask)

/-- Where a thread stands in `submit`. -/
inductive Submit where
  | checking (priority : Int)
  | passed (priority : Int)
  | numbered (task : ScheduledTask)
  | accepted
  | busy
  | refused
deriving DecidableEq

/-- `started` lists the tasks whose callable was called; `env` is what callables share. -/
structure Scheduler (Action Value Env : Type) where
  queue : List ScheduledTask
  stop : Bool
  sequence : Nat
  futures : List (FutureState Value)
  submits : List Submit
  workers : List (Worker Action Value)
  started : List Nat
  env : Env

/-- One step of one thread. -/
inductive SchedulerEvent (Action Value : Type) where
  | submit (priority : Int)
  | check (submit : Nat)
  | number (submit : Nat) (createdAt : Rat)
  | put (submit : Nat)
  | full (submit : Nat)
  | cancel (submit : Nat)
  | shutdown
  | loop (worker : Nat)
  | timeout (worker : Nat)
  | take (worker position : Nat)
  | begin (worker : Nat) (job : Job Action Value)
  | act (worker : Nat)
  | finish (worker : Nat)
  | empty (worker : Nat)
  | abandon (worker : Nat)

/-- What is fixed when the scheduler is constructed, and what an action of the
callable of a submission does. -/
structure TaskScheduler (Action Env : Type) where
  maxWorkers : Nat
  queueSize : Int
  perform : Nat → Action → Env → Env

namespace Scheduler

variable {Action Value Env : Type} (state : Scheduler Action Value Env)

def setWorker (index : Nat) (worker : Worker Action Value) : Scheduler Action Value Env :=
  { state with workers := state.workers.set index worker }

def setSubmit (index : Nat) (submit : Submit) : Scheduler Action Value Env :=
  { state with submits := state.submits.set index submit }

def setFuture (index : Nat) (future : FutureState Value) : Scheduler Action Value Env :=
  { state with futures := state.futures.set index future }

/-- A task at the front of the queue; which of several equal ones, is left open. -/
def front? (position : Nat) : Option ScheduledTask :=
  match state.queue[position]? with
  | some task => if state.queue.all (fun other => !other.before task) then some task else none
  | none => none

def room (queueSize : Int) : Bool := decide (queueSize ≤ 0 ∨ state.queue.length < queueSize)

theorem front?_eq_some {position : Nat} {task : ScheduledTask}
    (front : state.front? position = some task) : state.queue[position]? = some task := by
  unfold front? at front
  split at front
  · split at front
    · cases front
      assumption
    · cases front
  · cases front

end Scheduler

namespace TaskScheduler

variable {Action Value Env : Type} (scheduler : TaskScheduler Action Env)

def stoppedBeforeExecution : Thrown := RuntimeError "Scheduler stopped before execution."

/-- `submit`, statement by statement. -/
def stepSubmit (state : Scheduler Action Value Env) :
    SchedulerEvent Action Value → Option (Scheduler Action Value Env)
  | .submit priority =>
      some { state with
        submits := state.submits ++ [.checking priority]
        futures := state.futures ++ [.pending] }
  | .check index =>
      match state.submits[index]? with
      | some (.checking priority) =>
          some (state.setSubmit index (if state.stop then .refused else .passed priority))
      | _ => none
  | .number index createdAt =>
      match state.submits[index]? with
      | some (.passed priority) =>
          some { state.setSubmit index
              (.numbered ⟨priority, createdAt, state.sequence + 1, index⟩) with
            sequence := state.sequence + 1 }
      | _ => none
  | .put index =>
      match state.submits[index]? with
      | some (.numbered task) =>
          if state.room scheduler.queueSize then
            some { state.setSubmit index .accepted with queue := state.queue ++ [task] }
          else none
      | _ => none
  | .full index =>
      match state.submits[index]? with
      | some (.numbered _) =>
          if state.room scheduler.queueSize then none else some (state.setSubmit index .busy)
      | _ => none
  | _ => none

/-- The main loop of a worker.  `set_running_or_notify_cancel` raises for a future
that is neither pending nor cancelled, which ends the thread. -/
def stepLoop (state : Scheduler Action Value Env) :
    SchedulerEvent Action Value → Option (Scheduler Action Value Env)
  | .loop index =>
      match state.workers[index]? with
      | some .checking => some (state.setWorker index (if state.stop then .draining else .polling))
      | _ => none
  | .timeout index =>
      match state.workers[index]? with
      | some .polling => if state.queue.isEmpty then some (state.setWorker index .checking) else none
      | _ => none
  | .begin index job =>
      match state.workers[index]? with
      | some (.taken task) =>
          match state.futures[task.future]? with
          | some .pending =>
              some { (state.setWorker index (.running task job)).setFuture task.future
                .running with started := task.future :: state.started }
          | some .cancelled => some (state.setWorker index .checking)
          | _ => some (state.setWorker index (.died task))
      | _ => none
  | .act index =>
      match state.workers[index]? with
      | some (.running task ⟨action :: rest, ending⟩) =>
          some { state.setWorker index (.running task ⟨rest, ending⟩) with
            env := scheduler.perform task.future action state.env }
      | _ => none
  | .finish index =>
      match state.workers[index]? with
      | some (.running task ⟨[], .ok value⟩) =>
          some ((state.setWorker index .checking).setFuture task.future (.result value))
      | some (.running task ⟨[], .error thrown⟩) =>
          if thrown.isException then
            some ((state.setWorker index .checking).setFuture task.future (.exception thrown))
          else some (state.setWorker index (.died task))
      | _ => none
  | _ => none

/-- The drain of a worker that saw the stop signal: check, get, cancel. -/
def stepDrain (state : Scheduler Action Value Env) :
    SchedulerEvent Action Value → Option (Scheduler Action Value Env)
  | .empty index =>
      match state.workers[index]? with
      | some .draining =>
          some (state.setWorker index (if state.queue.isEmpty then .exited else .getting))
      | _ => none
  | .abandon index =>
      match state.workers[index]? with
      | some (.drained task) =>
          match state.futures[task.future]? with
          | some .pending =>
              some ((state.setWorker index .draining).setFuture task.future
                (.exception stoppedBeforeExecution))
          | some .cancelled => some (state.setWorker index .draining)
          | _ => some (state.setWorker index (.died task))
      | _ => none
  | _ => none

/-- `queue.get`, in the main loop and in the drain. -/
def stepTake (state : Scheduler Action Value Env) (index position : Nat) :
    Option (Scheduler Action Value Env) :=
  match state.front? position, state.workers[index]? with
  | some task, some .polling =>
      some { state.setWorker index (.taken task) with queue := state.queue.eraseIdx position }
  | some task, some .getting =>
      some { state.setWorker index (.drained task) with queue := state.queue.eraseIdx position }
  | _, _ => none

/-- A caller cancels a future that `submit` returned. -/
def stepCancel (state : Scheduler Action Value Env) (index : Nat) :
    Option (Scheduler Action Value Env) :=
  match state.submits[index]?, state.futures[index]? with
  | some .accepted, some .pending => some (state.setFuture index .cancelled)
  | _, _ => none

def step (state : Scheduler Action Value Env) (event : SchedulerEvent Action Value) :
    Option (Scheduler Action Value Env) :=
  match event with
  | .submit _ | .check _ | .number _ _ | .put _ | .full _ => scheduler.stepSubmit state event
  | .cancel index => stepCancel state index
  | .shutdown => some { state with stop := true }
  | .take index position => stepTake state index position
  | .loop _ | .timeout _ | .begin _ _ | .act _ | .finish _ => scheduler.stepLoop state event
  | .empty _ | .abandon _ => stepDrain state event

/-- All workers started, nothing submitted. -/
def initial (env : Env) : Scheduler Action Value Env where
  queue := []
  stop := false
  sequence := 0
  futures := []
  submits := []
  workers := List.replicate scheduler.maxWorkers .checking
  started := []
  env := env

def machine : Machine (Scheduler Action Value Env) (SchedulerEvent Action Value) :=
  ⟨scheduler.step⟩

end TaskScheduler

end CyreneReactor.Runtime
