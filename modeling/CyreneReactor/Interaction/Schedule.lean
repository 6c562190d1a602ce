import CyreneReactor.Interaction.Script

namespace Interaction

/-! Scheduled runs.

A schedule says which command starts or which thread moves next.  Together with a
script it computes a run of a whole pool, interleavings included.
-/

variable {system : System}

/-- What happens next: a command starts, or a thread makes at most `fuel` steps. -/
inductive Turn (Command : Type) where
  | start (command : Command)
  | run (index fuel : Nat)

/-- No thread but this one holds the lock. -/
def freeFor (index : Nat) (threads : List (Thread system)) : Bool :=
  threads.zipIdx.all fun entry => entry.1.depth == 0 || entry.2 == index

theorem freeFor_sound {index : Nat} {threads : List (Thread system)}
    (free : freeFor index threads = true) : FreeFor index threads := by
  intro other thread found held
  have entry := List.all_eq_true.mp free (thread, other)
    (List.mem_zipIdx_iff_getElem?.mpr (by simpa using found))
  simp only [Bool.or_eq_true, beq_iff_eq] at entry
  rcases entry with unheld | same
  · omega
  · exact same

/-- A thread that wants the lock can move only while no other holds it. -/
def enabled (index : Nat) (threads : List (Thread system)) (thread : Thread system) : Bool :=
  match thread.program with
  | .acquire _ => freeFor index threads
  | _ => true

namespace Script

variable (script : Script system)

/-- One step of one thread, unless it is over or waits for the lock. -/
def move? (index : Nat) (pool : Pool system) : Option (Pool system) :=
  match pool.threads[index]? with
  | none => none
  | some thread =>
      if enabled index pool.threads thread then
        (script.step? (thread.caller index) ⟨thread.depth, thread.program, pool.state⟩).map
          fun next => ⟨next.state,
            pool.threads.set index ⟨thread.command, next.depth, next.program⟩⟩
      else none

def moves (index : Nat) : Nat → Pool system → Pool system
  | 0, pool => pool
  | fuel + 1, pool =>
      match script.move? index pool with
      | none => pool
      | some next => moves index fuel next

def turn (pool : Pool system) : Turn system.Command → Pool system
  | .start command => { pool with threads := pool.threads ++ [Thread.start command] }
  | .run index fuel => script.moves index fuel pool

def play (pool : Pool system) (schedule : List (Turn system.Command)) : Pool system :=
  schedule.foldl script.turn pool

variable {script}

/-- A scheduled step is a step of the pool. -/
theorem step_of_move {index : Nat} {pool next : Pool system}
    (moved : script.move? index pool = some next) : Step pool next := by
  unfold move? at moved
  split at moved
  · cases moved
  · rename_i thread here
    split at moved
    · rename_i able
      simp only [Option.map_eq_some_iff] at moved
      obtain ⟨configuration, stepped, rfl⟩ := moved
      obtain ⟨command, depth, program⟩ := thread
      cases program with
      | pure value => cases stepped
      | call op continuation =>
          simp only [step?, Option.map_eq_some_iff] at stepped
          obtain ⟨⟨reply, after⟩, answered, rfl⟩ := stepped
          exact .call here (script.sound answered)
      | acquire continuation =>
          cases stepped
          exact .acquire here (freeFor_sound able)
      | release continuation =>
          cases depth with
          | zero => cases stepped
          | succ depth =>
              cases stepped
              exact .release here
    · cases moved

theorem step_of_moves {index : Nat} {pool : Pool system}
    (moves : (script.move? index pool).isSome = true) : Step pool (script.moves index 1 pool) := by
  obtain ⟨next, moved⟩ := Option.isSome_iff_exists.mp moves
  simp only [Script.moves, moved]
  exact step_of_move moved

theorem reaches_of_moves (index fuel : Nat) (pool : Pool system) :
    Relation.ReflTransGen Step pool (script.moves index fuel pool) := by
  induction fuel generalizing pool with
  | zero => exact .refl
  | succ fuel ih =>
      unfold moves
      split
      · exact .refl
      · rename_i next moved
        exact (ih next).head (step_of_move moved)

theorem reaches_of_turn (turn : Turn system.Command) (pool : Pool system) :
    Relation.ReflTransGen Step pool (script.turn pool turn) := by
  cases turn with
  | start command => exact .single (.start pool command)
  | run index fuel => exact reaches_of_moves index fuel pool

/-- What a schedule computes is a run. -/
theorem reaches_of_play (script : Script system) (schedule : List (Turn system.Command))
    (pool : Pool system) :
    Relation.ReflTransGen Step pool (script.play pool schedule) := by
  induction schedule generalizing pool with
  | nil => exact .refl
  | cons turn rest ih => exact (reaches_of_turn turn pool).trans (ih _)

/-- A schedule that goes on where another ended. -/
theorem reaches_of_play_append (script : Script system) (first second : List (Turn system.Command))
    (pool : Pool system) :
    Relation.ReflTransGen Step (script.play pool first) (script.play pool (first ++ second)) := by
  have goesOn : script.play pool (first ++ second) = script.play (script.play pool first) second :=
    List.foldl_append
  rw [goesOn]
  exact script.reaches_of_play second _

end Script

end Interaction
