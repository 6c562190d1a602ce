import CyreneReactor.Data.HeapQueue
import CyreneReactor.Runtime.TaskScheduler
import Mathlib.Algebra.Order.Ring.Rat
import Mathlib.Data.List.Perm.Basic

namespace CyreneReactor.Runtime

open HeapQueue

/-! In which order one worker executes what was queued before it takes its first task.

The queue is a heap over priority and time of creation.  The number that `submit` gives
to a task is not compared.
-/

/-- The tasks that are submitted one after the other, each with its priority and the reading
of the clock. -/
def submissions (inputs : List (Int × Rat)) : List ScheduledTask :=
  inputs.zipIdx.map fun entry => ⟨entry.1.1, entry.1.2, entry.2 + 1, entry.2⟩

/-- `PriorityQueue.put`, once for each task. -/
def putAll (tasks : List ScheduledTask) : List ScheduledTask :=
  pushAll ScheduledTask.before tasks

/-- The tasks that `_worker_loop` gets, until the queue is empty. -/
def workerLoop (queue : List ScheduledTask) : List ScheduledTask :=
  drain ScheduledTask.before queue

/-- The earlier task is more urgent, or as urgent and submitted before. -/
def InOrder (earlier later : ScheduledTask) : Prop :=
  earlier.priority < later.priority ∨
    (earlier.priority = later.priority ∧ earlier.sequence < later.sequence)

theorem before_comparison : Comparison ScheduledTask.before where
  asymm left right first := by
    simp only [ScheduledTask.before, decide_eq_true_eq, decide_eq_false_iff_not] at first ⊢
    grind
  trans low middle high first second := by
    simp only [ScheduledTask.before, decide_eq_false_iff_not] at first second ⊢
    grind

section Queue

variable {Action Value Env : Type} {state : Scheduler Action Value Env}
  {heap rest : List ScheduledTask} {task : ScheduledTask}

/-- What the heap pops is a front of the queue, and it leaves the other tasks. -/
theorem front_of_heappop (same : state.queue.Perm heap)
    (isHeap : IsHeap ScheduledTask.before heap)
    (popped : heappop ScheduledTask.before heap = some (task, rest)) :
    ∃ position, state.front? position = some task ∧
      (state.queue.eraseIdx position).Perm rest := by
  have parts := heappop_perm popped
  have member : task ∈ state.queue := by
    rw [same.mem_iff, parts.mem_iff]
    exact List.mem_cons_self
  obtain ⟨position, found⟩ := List.getElem?_of_mem member
  refine ⟨position, ?_, ?_⟩
  · have least := (heappop_heap before_comparison isHeap popped).2
    have front : state.queue.all (fun other => !other.before task) = true := by
      rw [List.all_eq_true]
      intro other queued
      simp [least other (same.mem_iff.mp queued)]
    simp [Scheduler.front?, found, front]
  · obtain ⟨bound, here⟩ := List.getElem?_eq_some_iff.mp found
    have erased := List.getElem_cons_eraseIdx_perm bound
    rw [here] at erased
    exact (erased.trans (same.trans parts)).cons_inv

end Queue

section Order

variable {inputs : List (Int × Rat)} {tasks : List ScheduledTask}

theorem length_submissions : (submissions inputs).length = inputs.length := by
  simp [submissions]

theorem getElem_submissions {index : Nat} (bound : index < (submissions inputs).length) :
    (submissions inputs)[index] =
      ⟨(inputs.get ⟨index, length_submissions ▸ bound⟩).1,
        (inputs.get ⟨index, length_submissions ▸ bound⟩).2, index + 1, index⟩ := by
  simp [submissions]

/-- The tasks of a submission are told apart by their numbers. -/
theorem submissions_numbered :
    (submissions inputs).Pairwise fun earlier later => earlier.sequence < later.sequence := by
  rw [List.pairwise_iff_getElem]
  intro left right low high less
  rw [getElem_submissions, getElem_submissions]
  exact Nat.succ_lt_succ less

theorem submissions_nodup : (submissions inputs).Nodup :=
  submissions_numbered.imp fun less same => by
    rw [same] at less
    exact Nat.lt_irrefl _ less

/-- How readings follow each other within a priority, by the numbers of the tasks. -/
theorem readings_iff {holds : Rat → Rat → Prop} :
    (inputs.Pairwise fun earlier later => earlier.1 = later.1 → holds earlier.2 later.2) ↔
      ∀ earlier ∈ submissions inputs, ∀ later ∈ submissions inputs,
        earlier.sequence < later.sequence → earlier.priority = later.priority →
        holds earlier.createdAt later.createdAt := by
  constructor
  · intro pairs earlier first later second less same
    obtain ⟨left, low, rfl⟩ := List.mem_iff_getElem.mp first
    obtain ⟨right, high, rfl⟩ := List.mem_iff_getElem.mp second
    rw [getElem_submissions, getElem_submissions] at less same ⊢
    exact List.pairwise_iff_getElem.mp pairs left right _ _ (by simpa using less) same
  · intro numbered
    rw [List.pairwise_iff_getElem]
    intro left right low high less same
    have first : left < (submissions inputs).length := by rwa [length_submissions]
    have second : right < (submissions inputs).length := by rwa [length_submissions]
    have holds := numbered _ (List.getElem_mem first) _ (List.getElem_mem second)
    rw [getElem_submissions, getElem_submissions] at holds
    exact holds (by simpa using less) same

/-- The worker gets every queued task, in the order of the heap. -/
theorem workerLoop_perm (tasks : List ScheduledTask) : (workerLoop (putAll tasks)).Perm tasks :=
  (drain_perm _).trans (pushAll_perm tasks)

theorem workerLoop_sorted (tasks : List ScheduledTask) :
    (workerLoop (putAll tasks)).Pairwise fun earlier later => later.before earlier = false :=
  drain_sorted before_comparison (pushAll_heap before_comparison tasks)

/-- In a list without repetitions, two members stand one way or the other. -/
theorem ordered_members {executed : List ScheduledTask} {left right : ScheduledTask}
    (first : left ∈ executed) (second : right ∈ executed) (apart : left ≠ right)
    {relation : ScheduledTask → ScheduledTask → Prop} (pairs : executed.Pairwise relation) :
    relation left right ∨ relation right left := by
  obtain ⟨low, bound, rfl⟩ := List.mem_iff_getElem.mp first
  obtain ⟨high, bound', rfl⟩ := List.mem_iff_getElem.mp second
  have places := List.pairwise_iff_getElem.mp pairs
  rcases Nat.lt_trichotomy low high with less | same | less
  · exact .inl (places low high bound bound' less)
  · subst same
    exact absurd rfl apart
  · exact .inr (places high low bound' bound less)

/-- Where readings strictly increase within a priority, the heap's order is the right one. -/
theorem inOrder_of_rising
    (rising : inputs.Pairwise fun earlier later => earlier.1 = later.1 → earlier.2 < later.2)
    (puts : tasks.Perm (submissions inputs)) :
    (workerLoop (putAll tasks)).Pairwise InOrder := by
  have same := (workerLoop_perm tasks).trans puts
  have distinct : (workerLoop (putAll tasks)).Nodup := same.nodup_iff.mpr submissions_nodup
  have readings := readings_iff.mp rising
  refine (distinct.and (workerLoop_sorted tasks)).imp_of_mem ?_
  intro earlier later first second both
  obtain ⟨apart, sorted⟩ := both
  simp only [ScheduledTask.before, decide_eq_false_iff_not, not_or, not_and] at sorted
  obtain ⟨urgent, created⟩ := sorted
  have earlierSubmitted := same.mem_iff.mp first
  have laterSubmitted := same.mem_iff.mp second
  by_cases priorities : earlier.priority = later.priority
  · refine .inr ⟨priorities, ?_⟩
    rcases ordered_members earlierSubmitted laterSubmitted apart submissions_numbered with
      less | less
    · exact less
    · -- the readings say that the later one is the earlier one
      have read := readings later laterSubmitted earlier earlierSubmitted less priorities.symm
      exact absurd read (created priorities.symm)
  · exact .inl (by omega)

/-- Where the order is right, no reading steps back within a priority. -/
theorem steady_of_inOrder (puts : tasks.Perm (submissions inputs))
    (inOrder : (workerLoop (putAll tasks)).Pairwise InOrder) :
    inputs.Pairwise fun earlier later => earlier.1 = later.1 → earlier.2 ≤ later.2 := by
  have same := (workerLoop_perm tasks).trans puts
  rw [readings_iff]
  intro earlier first later second less priorities
  have apart : earlier ≠ later := fun equal => by simp [equal] at less
  have both := ordered_members (same.mem_iff.mpr first) (same.mem_iff.mpr second) apart
    (inOrder.and (workerLoop_sorted tasks))
  simp only [InOrder, ScheduledTask.before, decide_eq_false_iff_not, not_or, not_and] at both
  rcases both with ⟨_, _, created⟩ | ⟨wrong, _⟩
  · exact not_lt.mp (created priorities.symm)
  · omega

/-- The two tasks change places. -/
def exchanged (left right task : ScheduledTask) : ScheduledTask :=
  if task = left then right else if task = right then left else task

theorem before_exchanged {left right : ScheduledTask} (priorities : left.priority = right.priority)
    (created : left.createdAt = right.createdAt) (first second : ScheduledTask) :
    (exchanged left right first).before (exchanged left right second) = first.before second := by
  have keys : ∀ task, (exchanged left right task).priority = task.priority ∧
      (exchanged left right task).createdAt = task.createdAt := by
    intro task
    unfold exchanged
    split
    · rename_i same
      simp [same, priorities, created]
    · split
      · rename_i same
        simp [same, priorities, created]
      · simp
  simp [ScheduledTask.before, keys]

theorem exchanged_exchanged (left right task : ScheduledTask) :
    exchanged left right (exchanged left right task) = task := by
  unfold exchanged
  split
  · rename_i same
    subst same
    by_cases equal : right = task
    · simp [equal]
    · simp [equal]
  · split
    · rename_i same
      simp [same]
    · rfl

theorem exchanged_perm {left right : ScheduledTask} (distinct : tasks.Nodup) (first : left ∈ tasks)
    (second : right ∈ tasks) : (tasks.map (exchanged left right)).Perm tasks := by
  have back := exchanged_exchanged left right
  have inside : ∀ task ∈ tasks, exchanged left right task ∈ tasks := by
    intro task member
    unfold exchanged
    split
    · exact second
    · split
      · exact first
      · exact member
  have renamed : (tasks.map (exchanged left right)).Nodup := by
    refine List.Pairwise.map _ (fun one two apart same => ?_) distinct
    have again := congrArg (exchanged left right) same
    rw [back, back] at again
    exact apart again
  rw [List.perm_ext_iff_of_nodup renamed distinct]
  intro task
  constructor
  · intro member
    obtain ⟨origin, there, rfl⟩ := List.mem_map.mp member
    exact inside origin there
  · intro member
    exact List.mem_map.mpr ⟨_, inside task member, back task⟩

/-- The order cannot be right for both ways in which two tasks with one reading are put. -/
theorem rising_of_inOrder
    (inOrder : ∀ puts : List ScheduledTask, puts.Perm (submissions inputs) →
      (workerLoop (putAll puts)).Pairwise InOrder) :
    inputs.Pairwise fun earlier later => earlier.1 = later.1 → earlier.2 < later.2 := by
  have steady := readings_iff.mp (steady_of_inOrder (.refl _) (inOrder _ (.refl _)))
  rw [readings_iff]
  intro earlier first later second less priorities
  by_cases created : earlier.createdAt = later.createdAt
  · -- the other way round, the worker gets the same list with the two tasks exchanged
    have alike := before_exchanged priorities created
    have puts := exchanged_perm submissions_nodup first second
    have turned := inOrder _ puts
    unfold workerLoop putAll at turned
    rw [pushAll_map alike, drain_map alike, List.pairwise_map] at turned
    have same := workerLoop_perm (submissions inputs)
    have apart : earlier ≠ later := fun equal => by simp [equal] at less
    have both := ordered_members (same.mem_iff.mpr first) (same.mem_iff.mpr second) apart
      ((inOrder _ (.refl _)).and turned)
    simp only [InOrder, exchanged, if_true, apart.symm, if_false] at both
    omega
  · have least := steady earlier first later second less priorities
    exact lt_of_le_of_ne least created

/-- The worker executes what was submitted in order of priority and submission, in whatever
order concurrent submitters put it, exactly when the clock moves on between any two
submissions of one priority.  A single submitter, too, needs a clock that is not set back. -/
theorem executes_in_order_iff (inputs : List (Int × Rat)) :
    ((∀ puts : List ScheduledTask, puts.Perm (submissions inputs) →
        (workerLoop (putAll puts)).Perm (submissions inputs) ∧
          (workerLoop (putAll puts)).Pairwise InOrder) ↔
      inputs.Pairwise fun earlier later => earlier.1 = later.1 → earlier.2 < later.2) ∧
    ((workerLoop (putAll (submissions inputs))).Pairwise InOrder →
      inputs.Pairwise fun earlier later => earlier.1 = later.1 → earlier.2 ≤ later.2) := by
  refine ⟨⟨fun ordered => rising_of_inOrder fun puts same => (ordered puts same).2, ?_⟩,
    steady_of_inOrder (.refl _)⟩
  intro rising puts same
  exact ⟨(workerLoop_perm puts).trans same, inOrder_of_rising rising same⟩

/-- Four tasks of one priority and one reading: the third is executed before the second. -/
theorem heap_reorders_equal_readings :
    ¬ (workerLoop (putAll (submissions [(0, 0), (0, 0), (0, 0), (0, 0)]))).Pairwise InOrder := by
  have order : workerLoop (putAll (submissions [(0, 0), (0, 0), (0, 0), (0, 0)])) =
      [⟨0, 0, 1, 0⟩, ⟨0, 0, 3, 2⟩, ⟨0, 0, 2, 1⟩, ⟨0, 0, 4, 3⟩] := by
    decide +kernel
  rw [order]
  simp [InOrder]

end Order

end CyreneReactor.Runtime
