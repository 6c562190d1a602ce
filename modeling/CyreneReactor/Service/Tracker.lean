import CyreneReactor.Interaction.Keyed
import CyreneReactor.Service.World

namespace CyreneReactor

open Interaction

/-! The tracker of activity, as `runtime_activity.py` asks for it.

The SDK that keeps the tasks is no part of the repository.  `ActivitySource` stands for
it, and `ActivitySource.Documented` says what the service relies on.
-/

/-- What is held of a task after a report, unless it was admitted twice, or moved on or
completed without being active. -/
def ActivityCall.track : Option TaskState → ActivityCall → Option (Option TaskState)
  | none, admission _ state => some (some state)
  | some _, transition _ state => some (some state)
  | some _, complete _ => some none
  | _, _ => none

/-- `ActivitySourceLifecycleProtocol`: it is started with the active tasks, holds a table
of them, and raises for a report that it does not take. -/
structure ActivitySource where
  Table : Type
  start : List (String × TaskState) → Table
  report : Table → ActivityCall → Option Table
  active : Table → String → Option TaskState

namespace ActivitySource

/-- It holds the tasks it was started with, each in its one state.  A report that is in
order for what it holds of the task does not raise, and changes what it holds of this
task alone. -/
structure Documented (source : ActivitySource) : Prop where
  started : ∀ tasks, (∀ task state other, (task, state) ∈ tasks → (task, other) ∈ tasks →
    state = other) → ∀ task state,
      source.active (source.start tasks) task = some state ↔ (task, state) ∈ tasks
  takes : ∀ table call entry, call.track (source.active table call.task) = some entry →
    ∃ next, source.report table call = some next ∧
      source.active next = Function.update (source.active table) call.task entry

variable {source : ActivitySource}

theorem Documented.started_empty (documented : source.Documented) :
    source.active (source.start []) = fun _ => none := by
  funext task
  have holds := documented.started [] (fun _ _ _ member => absurd member List.not_mem_nil) task
  cases held : source.active (source.start []) task with
  | none => rfl
  | some state => exact absurd ((holds state).mp held) List.not_mem_nil

/-- A source that is told what each task allows takes every report. -/
theorem Documented.follows (documented : source.Documented) {table : source.Table}
    {calls : List ActivityCall} {last : String → Option TaskState}
    (followed : follow (keyed ActivityCall.task ActivityCall.track) (source.active table) calls =
      some last) :
    ∃ next, follow source.report table calls = some next ∧ source.active next = last := by
  refine follow_simulated (fun held table => source.active table = held) ?_ followed rfl
  rintro held call held' table moved rfl
  obtain ⟨entry, tracked, rfl⟩ := Option.map_eq_some_iff.mp moved
  exact documented.takes table call entry tracked

end ActivitySource

end CyreneReactor
