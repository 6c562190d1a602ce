import CyreneReactor.Interaction.Schedule

namespace Interaction

/-! Noninterference between the tenants of a pool.

Every command belongs to one tenant.  A history is told by labels: which tenant's
thread moved, and what the outer world gave it.  Two histories that agree on the
labels of a tenant leave the tenant with the same threads, and so with the same
results, if steps of others do not show in its view of the state and its own steps
are determined by that view and by what they are given.
-/

variable {system : System} {Tenant Given : Type}

/-- How a pool is shared: who a command belongs to, and what part of an answer
comes from outside the shared state. -/
structure Tenancy (system : System) (Tenant Given : Type) where
  tenant : system.Command → Tenant
  given : (op : system.signature.Op) → system.signature.Answer op → Given

/-- What a label says of a step. -/
inductive Move (system : System) (Given : Type) where
  | start (command : system.Command)
  | call (given : Given)
  | acquire
  | release

/-- A step as its tenant sees it: the thread is named by its place among the
threads of the tenant. -/
structure Label (system : System) (Tenant Given : Type) where
  tenant : Tenant
  place : Nat
  move : Move system Given

namespace Tenancy

variable [DecidableEq Tenant] (tenancy : Tenancy system Tenant Given)

/-- The threads of one tenant, in the order they were started. -/
def threadsOf (tenant : Tenant) (threads : List (Thread system)) : List (Thread system) :=
  threads.filter fun thread => tenancy.tenant thread.command = tenant

/-- The place of thread `index` among the threads of its tenant. -/
def place (tenant : Tenant) (threads : List (Thread system)) (index : Nat) : Nat :=
  (tenancy.threadsOf tenant (threads.take index)).length

/-- One labelled step of a pool. -/
inductive Moves : Pool system → Label system Tenant Given → Pool system → Prop where
  | start (pool : Pool system) (command : system.Command) :
      Moves pool
        ⟨tenancy.tenant command,
          (tenancy.threadsOf (tenancy.tenant command) pool.threads).length, .start command⟩
        { pool with threads := pool.threads ++ [Thread.start command] }
  | call {pool : Pool system} {index : Nat} {command : system.Command} {depth : Nat}
      {op : system.signature.Op} {next answer} {state : system.State}
      (here : pool.threads[index]? = some ⟨command, depth, .call op next⟩)
      (does : system.exec ⟨index, command⟩ (decide (0 < depth)) op pool.state answer state) :
      Moves pool
        ⟨tenancy.tenant command, tenancy.place (tenancy.tenant command) pool.threads index,
          .call (tenancy.given op answer)⟩
        ⟨state, pool.threads.set index ⟨command, depth, next answer⟩⟩
  | acquire {pool : Pool system} {index : Nat} {command : system.Command} {depth : Nat} {next}
      (here : pool.threads[index]? = some ⟨command, depth, .acquire next⟩)
      (free : ∀ other (thread : Thread system), pool.threads[other]? = some thread →
        0 < thread.depth → other = index) :
      Moves pool
        ⟨tenancy.tenant command, tenancy.place (tenancy.tenant command) pool.threads index,
          .acquire⟩
        ⟨pool.state, pool.threads.set index ⟨command, depth + 1, next⟩⟩
  | release {pool : Pool system} {index : Nat} {command : system.Command} {depth : Nat} {next}
      (here : pool.threads[index]? = some ⟨command, depth + 1, .release next⟩) :
      Moves pool
        ⟨tenancy.tenant command, tenancy.place (tenancy.tenant command) pool.threads index,
          .release⟩
        ⟨pool.state, pool.threads.set index ⟨command, depth, next⟩⟩

/-- A labelled history of a pool. -/
inductive History : Pool system → List (Label system Tenant Given) → Pool system → Prop where
  | done (pool : Pool system) : History pool [] pool
  | step {pool middle last : Pool system} {label : Label system Tenant Given}
      {labels : List (Label system Tenant Given)} (moves : tenancy.Moves pool label middle)
      (rest : History middle labels last) : History pool (label :: labels) last

variable {tenancy} {tenant : Tenant} {pool next : Pool system}
  {label : Label system Tenant Given} {labels : List (Label system Tenant Given)}

theorem Moves.step (moves : tenancy.Moves pool label next) : Step pool next := by
  cases moves with
  | start command => exact .start pool command
  | call here does => exact .call here does
  | acquire here free => exact .acquire here free
  | release here => exact .release here

/-- Every step has a label, so every run is a history. -/
theorem moves_of_step (step : Step pool next) : ∃ label, tenancy.Moves pool label next := by
  cases step with
  | start command => exact ⟨_, .start pool command⟩
  | call here does => exact ⟨_, .call here does⟩
  | acquire here free => exact ⟨_, .acquire here free⟩
  | release here => exact ⟨_, .release here⟩

theorem History.reaches {last : Pool system} (history : tenancy.History pool labels last) :
    Relation.ReflTransGen Step pool last := by
  induction history with
  | done pool => exact .refl
  | step moves _ ih => exact ih.head moves.step

theorem History.trans {middle last : Pool system} {later : List (Label system Tenant Given)}
    (history : tenancy.History pool labels middle) (rest : tenancy.History middle later last) :
    tenancy.History pool (labels ++ later) last := by
  induction history with
  | done pool => exact rest
  | step moves _ ih => exact .step moves (ih rest)

private theorem split_at {α : Type} {values : List α} {index : Nat} {value : α}
    (here : values[index]? = some value) :
    values = values.take index ++ value :: values.drop (index + 1) := by
  obtain ⟨bound, rfl⟩ := List.getElem?_eq_some_iff.mp here
  rw [← List.drop_eq_getElem_cons bound, List.take_append_drop]

/-- A thread is found at its place among the threads of its tenant. -/
theorem threadsOf_place {threads : List (Thread system)} {index : Nat} {thread : Thread system}
    (here : threads[index]? = some thread) (own : tenancy.tenant thread.command = tenant) :
    (tenancy.threadsOf tenant threads)[tenancy.place tenant threads index]? = some thread := by
  have split : tenancy.threadsOf tenant threads =
      tenancy.threadsOf tenant (threads.take index) ++
        thread :: tenancy.threadsOf tenant (threads.drop (index + 1)) := by
    conv => lhs; rw [split_at here]
    simp [threadsOf, List.filter_append, own]
  rw [split, place, List.getElem?_append_right (Nat.le_refl _), Nat.sub_self]
  rfl

/-- Moving a thread of the tenant replaces it at its place. -/
theorem threadsOf_set_own {threads : List (Thread system)} {index : Nat}
    {thread moved : Thread system} (here : threads[index]? = some thread)
    (same : moved.command = thread.command) (own : tenancy.tenant thread.command = tenant) :
    tenancy.threadsOf tenant (threads.set index moved) =
      (tenancy.threadsOf tenant threads).set (tenancy.place tenant threads index) moved := by
  have bound := (List.getElem?_eq_some_iff.mp here).1
  have split : tenancy.threadsOf tenant threads =
      tenancy.threadsOf tenant (threads.take index) ++
        thread :: tenancy.threadsOf tenant (threads.drop (index + 1)) := by
    conv => lhs; rw [split_at here]
    simp [threadsOf, List.filter_append, own]
  rw [split, place, List.set_append_right _ _ (Nat.le_refl _), Nat.sub_self, List.set_cons_zero,
    List.set_eq_take_append_cons_drop, if_pos bound]
  simp [threadsOf, List.filter_append, same, own]

/-- Moving a thread of another tenant is not seen. -/
theorem threadsOf_set_other {threads : List (Thread system)} {index : Nat}
    {thread moved : Thread system} (here : threads[index]? = some thread)
    (same : moved.command = thread.command) (other : tenancy.tenant thread.command ≠ tenant) :
    tenancy.threadsOf tenant (threads.set index moved) = tenancy.threadsOf tenant threads := by
  have bound := (List.getElem?_eq_some_iff.mp here).1
  conv => rhs; rw [split_at here]
  rw [List.set_eq_take_append_cons_drop, if_pos bound]
  simp [threadsOf, List.filter_append, same, other]

end Tenancy

namespace Script

variable [DecidableEq Tenant] (script : Script system) (tenancy : Tenancy system Tenant Given)

/-- What is told of the next step of a thread. -/
def tells (index : Nat) (thread : Thread system) (state : system.State) :
    Option (Move system Given) :=
  match thread.program with
  | .pure _ => none
  | .call op _ =>
      (script.answer (thread.caller index) (decide (0 < thread.depth)) op state).map fun reply =>
        .call (tenancy.given op reply.1)
  | .acquire _ => some .acquire
  | .release _ => some .release

def label? (index : Nat) (pool : Pool system) : Option (Label system Tenant Given) := do
  let thread ← pool.threads[index]?
  let move ← script.tells tenancy index thread pool.state
  pure ⟨tenancy.tenant thread.command,
    tenancy.place (tenancy.tenant thread.command) pool.threads index, move⟩

def labelsOfMoves (index : Nat) : Nat → Pool system → List (Label system Tenant Given)
  | 0, _ => []
  | fuel + 1, pool =>
      match script.move? index pool with
      | none => []
      | some next => (script.label? tenancy index pool).toList ++ labelsOfMoves index fuel next

def labelsOfTurn (pool : Pool system) : Turn system.Command → List (Label system Tenant Given)
  | .start command =>
      [⟨tenancy.tenant command,
        (tenancy.threadsOf (tenancy.tenant command) pool.threads).length, .start command⟩]
  | .run index fuel => script.labelsOfMoves tenancy index fuel pool

def labels (pool : Pool system) :
    List (Turn system.Command) → List (Label system Tenant Given)
  | [] => []
  | turn :: rest => script.labelsOfTurn tenancy pool turn ++ labels (script.turn pool turn) rest

variable {script tenancy}

/-- A scheduled step has the label that is told of it. -/
theorem moves_of_move {index : Nat} {pool next : Pool system}
    (moved : script.move? index pool = some next) :
    ∃ label, script.label? tenancy index pool = some label ∧ tenancy.Moves pool label next := by
  unfold move? at moved
  split at moved
  · cases moved
  · rename_i thread here
    split at moved
    · rename_i able
      simp only [Option.map_eq_some_iff] at moved
      obtain ⟨configuration, stepped, rfl⟩ := moved
      obtain ⟨command, depth, program⟩ := thread
      simp only [label?, here, Option.bind_eq_bind, Option.bind_some]
      cases program with
      | pure value => cases stepped
      | call op continuation =>
          simp only [step?, Option.map_eq_some_iff] at stepped
          obtain ⟨⟨reply, after⟩, answered, rfl⟩ := stepped
          exact ⟨_, by simp only [tells, answered]; rfl, .call here (script.sound answered)⟩
      | acquire continuation =>
          cases stepped
          exact ⟨_, rfl, .acquire here (freeFor_sound able)⟩
      | release continuation =>
          cases depth with
          | zero => cases stepped
          | succ depth =>
              cases stepped
              exact ⟨_, rfl, .release here⟩
    · cases moved

theorem history_of_moves (index fuel : Nat) (pool : Pool system) :
    tenancy.History pool (script.labelsOfMoves tenancy index fuel pool)
      (script.moves index fuel pool) := by
  induction fuel generalizing pool with
  | zero => exact .done pool
  | succ fuel ih =>
      unfold moves labelsOfMoves
      cases moved : script.move? index pool with
      | none => exact .done pool
      | some next =>
          obtain ⟨label, told, moves⟩ := @moves_of_move _ _ _ _ script tenancy _ _ _ moved
          simp only [told]
          exact .step moves (ih next)

/-- What a schedule computes is a history. -/
theorem history_of_play (schedule : List (Turn system.Command)) (pool : Pool system) :
    tenancy.History pool (script.labels tenancy pool schedule) (script.play pool schedule) := by
  induction schedule generalizing pool with
  | nil => exact .done pool
  | cons turn rest ih =>
      have first : tenancy.History pool (script.labelsOfTurn tenancy pool turn)
          (script.turn pool turn) := by
        cases turn with
        | start command => exact .step (.start pool command) (.done _)
        | run index fuel => exact history_of_moves index fuel pool
      exact first.trans (ih _)

end Script

/-- What keeps a tenant apart from the others, on the pools that `Good` describes. -/
structure Isolated [DecidableEq Tenant] {View : Type} (tenancy : Tenancy system Tenant Given)
    (view : system.State → View) (tenant : Tenant) (Good : Pool system → Prop) : Prop where
  keeps : ∀ {pool next}, Good pool → Step pool next → Good next
  confined : ∀ {pool : Pool system} {index command depth op next answer state}, Good pool →
    pool.threads[index]? = some ⟨command, depth, .call op next⟩ →
    system.exec ⟨index, command⟩ (decide (0 < depth)) op pool.state answer state →
    tenancy.tenant command ≠ tenant → view state = view pool.state
  determined : ∀ {left right : Pool system}
      {leftIndex rightIndex command depth op next leftAnswer rightAnswer leftState rightState},
    Good left → Good right →
    left.threads[leftIndex]? = some ⟨command, depth, .call op next⟩ →
    right.threads[rightIndex]? = some ⟨command, depth, .call op next⟩ →
    system.exec ⟨leftIndex, command⟩ (decide (0 < depth)) op left.state leftAnswer leftState →
    system.exec ⟨rightIndex, command⟩ (decide (0 < depth)) op right.state rightAnswer rightState →
    tenancy.tenant command = tenant → view left.state = view right.state →
    tenancy.given op leftAnswer = tenancy.given op rightAnswer →
    leftAnswer = rightAnswer ∧ view leftState = view rightState

namespace Isolated

open Tenancy

variable [DecidableEq Tenant] {View : Type} {tenancy : Tenancy system Tenant Given}
  {view : system.State → View} {tenant : Tenant} {Good : Pool system → Prop}

/-- What a tenant sees of a pool. -/
def sees (tenancy : Tenancy system Tenant Given) (view : system.State → View) (tenant : Tenant)
    (pool : Pool system) : View × List (Thread system) :=
  (view pool.state, tenancy.threadsOf tenant pool.threads)

/-- A step of another tenant is not seen. -/
theorem sees_of_other (isolated : Isolated tenancy view tenant Good) {pool next : Pool system}
    {label : Label system Tenant Given} (good : Good pool)
    (moves : tenancy.Moves pool label next) (other : label.tenant ≠ tenant) :
    sees tenancy view tenant next = sees tenancy view tenant pool := by
  cases moves with
  | start command =>
      have apart : tenancy.tenant command ≠ tenant := other
      simp [sees, threadsOf, List.filter_append, Thread.start, apart]
  | call here does =>
      exact Prod.ext (isolated.confined good here does other)
        (threadsOf_set_other here rfl other)
  | acquire here free => exact Prod.ext rfl (threadsOf_set_other here rfl other)
  | release here => exact Prod.ext rfl (threadsOf_set_other here rfl other)

/-- Threads at the same place of the same tenant are the same. -/
theorem same_thread {left right : Pool system} {leftIndex rightIndex : Nat}
    {first second : Thread system}
    (threads : tenancy.threadsOf tenant left.threads = tenancy.threadsOf tenant right.threads)
    (hereLeft : left.threads[leftIndex]? = some first)
    (hereRight : right.threads[rightIndex]? = some second)
    (ownLeft : tenancy.tenant first.command = tenant)
    (ownRight : tenancy.tenant second.command = tenant)
    (places : tenancy.place tenant left.threads leftIndex =
      tenancy.place tenant right.threads rightIndex) : first = second := by
  have found := threadsOf_place hereLeft ownLeft
  rw [threads, places, threadsOf_place hereRight ownRight, Option.some.injEq] at found
  exact found.symm

/-- Moved alike, threads at the same place stay alike. -/
theorem same_set {left right : Pool system} {leftIndex rightIndex : Nat}
    {thread : Thread system} (moved : Thread system)
    (threads : tenancy.threadsOf tenant left.threads = tenancy.threadsOf tenant right.threads)
    (hereLeft : left.threads[leftIndex]? = some thread)
    (hereRight : right.threads[rightIndex]? = some thread)
    (places : tenancy.place tenant left.threads leftIndex =
      tenancy.place tenant right.threads rightIndex)
    (same : moved.command = thread.command) (own : tenancy.tenant thread.command = tenant) :
    tenancy.threadsOf tenant (left.threads.set leftIndex moved) =
      tenancy.threadsOf tenant (right.threads.set rightIndex moved) := by
  rw [threadsOf_set_own hereLeft same own, threadsOf_set_own hereRight same own, threads, places]

/-- The same step of the tenant, where it sees the same, leaves it with the same. -/
theorem sees_of_same (isolated : Isolated tenancy view tenant Good)
    {left right leftNext rightNext : Pool system} {first second : Label system Tenant Given}
    (goodLeft : Good left) (goodRight : Good right)
    (seen : sees tenancy view tenant left = sees tenancy view tenant right)
    (movesLeft : tenancy.Moves left first leftNext)
    (movesRight : tenancy.Moves right second rightNext) (same : first = second)
    (own : first.tenant = tenant) :
    sees tenancy view tenant leftNext = sees tenancy view tenant rightNext := by
  obtain ⟨views, threads⟩ := Prod.ext_iff.mp seen
  simp only [sees] at views threads
  cases movesLeft with
  | start command =>
      cases movesRight with
      | start other =>
          simp only [Label.mk.injEq, Move.start.injEq] at same
          obtain ⟨_, _, rfl⟩ := same
          simp only [sees, threadsOf, List.filter_append] at threads ⊢
          rw [views, threads]
      | call | acquire | release => simp at same
  | call hereLeft doesLeft =>
      cases movesRight with
      | call hereRight doesRight =>
          simp only [Label.mk.injEq, Move.call.injEq] at same
          obtain ⟨tenants, places, given⟩ := same
          have ownRight := tenants.symm.trans own
          simp only at own
          rw [own, ownRight] at places
          have equal := same_thread threads hereLeft hereRight own ownRight places
          simp only [Thread.mk.injEq] at equal
          obtain ⟨rfl, rfl, programs⟩ := equal
          cases programs
          obtain ⟨rfl, after⟩ := isolated.determined goodLeft goodRight hereLeft hereRight doesLeft
            doesRight own views given
          exact Prod.ext after (same_set _ threads hereLeft hereRight places rfl own)
      | start | acquire | release => simp at same
  | acquire hereLeft freeLeft =>
      cases movesRight with
      | acquire hereRight freeRight =>
          simp only [Label.mk.injEq, and_true] at same
          obtain ⟨tenants, places⟩ := same
          have ownRight := tenants.symm.trans own
          simp only at own
          rw [own, ownRight] at places
          have equal := same_thread threads hereLeft hereRight own ownRight places
          simp only [Thread.mk.injEq] at equal
          obtain ⟨rfl, rfl, programs⟩ := equal
          cases programs
          exact Prod.ext views (same_set _ threads hereLeft hereRight places rfl own)
      | start | call | release => simp at same
  | release hereLeft =>
      cases movesRight with
      | release hereRight =>
          simp only [Label.mk.injEq, and_true] at same
          obtain ⟨tenants, places⟩ := same
          have ownRight := tenants.symm.trans own
          simp only at own
          rw [own, ownRight] at places
          have equal := same_thread threads hereLeft hereRight own ownRight places
          simp only [Thread.mk.injEq, Nat.add_right_cancel_iff] at equal
          obtain ⟨rfl, rfl, programs⟩ := equal
          cases programs
          exact Prod.ext views (same_set _ threads hereLeft hereRight places rfl own)
      | start | call | acquire => simp at same

/-- Histories that agree on the labels of a tenant look the same to it. -/
theorem histories_agree (isolated : Isolated tenancy view tenant Good)
    {left right leftLast rightLast : Pool system} {first second : List (Label system Tenant Given)}
    (goodLeft : Good left) (goodRight : Good right)
    (seen : sees tenancy view tenant left = sees tenancy view tenant right)
    (historyLeft : tenancy.History left first leftLast)
    (historyRight : tenancy.History right second rightLast)
    (agree : first.filter (fun label => label.tenant = tenant) =
      second.filter (fun label => label.tenant = tenant)) :
    sees tenancy view tenant leftLast = sees tenancy view tenant rightLast := by
  induction historyLeft generalizing right second with
  | done pool =>
      induction historyRight with
      | done other => exact seen
      | step moves rest ih =>
          rename_i label labels
          have other : label.tenant ≠ tenant := by
            intro own
            simp [own] at agree
          have unseen := isolated.sees_of_other goodRight moves other
          exact ih (isolated.keeps goodRight moves.step) (seen.trans unseen.symm)
            (by simpa [other] using agree)
  | step moves rest ih =>
      rename_i label labels
      by_cases own : label.tenant = tenant
      · induction historyRight with
        | done other => simp [own] at agree
        | step otherMoves otherRest otherIh =>
            rename_i otherLabel otherLabels
            by_cases otherOwn : otherLabel.tenant = tenant
            · simp only [List.filter_cons, own, otherOwn, decide_true, if_true,
                List.cons.injEq] at agree
              exact ih (isolated.keeps goodLeft moves.step)
                (isolated.keeps goodRight otherMoves.step)
                (isolated.sees_of_same goodLeft goodRight seen moves otherMoves agree.1 own)
                otherRest agree.2
            · have unseen := isolated.sees_of_other goodRight otherMoves otherOwn
              exact otherIh ih (isolated.keeps goodRight otherMoves.step) (seen.trans unseen.symm)
                (by simpa [otherOwn] using agree)
      · have unseen := isolated.sees_of_other goodLeft moves own
        exact ih (isolated.keeps goodLeft moves.step) goodRight (unseen.trans seen) historyRight
          (by simpa [own] using agree)

end Isolated

end Interaction
