import Mathlib.Tactic.ByContra
import CyreneReactor.Interaction.Pool

namespace Interaction

/-! Scripted runs.

A script fixes the answers of the world, and with them a program becomes a
computation.  What it computes is one run of the program, and so one schedule
of a pool.
-/

variable {system : System} {α : Type}

structure Script (system : System) where
  answer : Caller system.Command → Bool → (op : system.signature.Op) → system.State →
    Option (system.signature.Answer op × system.State)
  sound : ∀ {caller held op state reply next},
    answer caller held op state = some (reply, next) →
    system.exec caller held op state reply next

/-- A program under way, the locks it holds and the state it runs on. -/
structure Configuration (system : System) (α : Type) where
  depth : Nat
  program : Program system.signature α
  state : system.State

namespace Script

variable (script : Script system) (caller : Caller system.Command)

def step? : Configuration system α → Option (Configuration system α)
  | ⟨_, .pure _, _⟩ => none
  | ⟨depth, .call op next, state⟩ =>
      (script.answer caller (decide (0 < depth)) op state).map fun reply =>
        ⟨depth, next reply.1, reply.2⟩
  | ⟨depth, .acquire next, state⟩ => some ⟨depth + 1, next, state⟩
  | ⟨0, .release _, _⟩ => none
  | ⟨depth + 1, .release next, state⟩ => some ⟨depth, next, state⟩

/-- At most `fuel` steps of the program. -/
def advance : Nat → Configuration system α → Configuration system α
  | 0, configuration => configuration
  | fuel + 1, configuration =>
      match script.step? caller configuration with
      | none => configuration
      | some next => advance fuel next

variable {script caller}

theorem advance_stuck {configuration : Configuration system α}
    (stuck : script.step? caller configuration = none) (fuel : Nat) :
    script.advance caller fuel configuration = configuration := by
  cases fuel with
  | zero => rfl
  | succ fuel => simp only [advance, stuck]

theorem advance_add (first second : Nat) (configuration : Configuration system α) :
    script.advance caller (first + second) configuration =
      script.advance caller second (script.advance caller first configuration) := by
  induction first generalizing configuration with
  | zero => rw [Nat.zero_add, advance]
  | succ first ih =>
      rw [Nat.succ_add_eq_add_succ, Nat.add_succ]
      cases stepped : script.step? caller configuration with
      | none => simp only [advance_stuck stepped]
      | some next => simp only [advance, stepped, ih]

/-- What a script computes is a run. -/
theorem advance_runs (fuel : Nat) (start : Configuration system α) :
    Runs caller start.depth start.program start.state (script.advance caller fuel start).depth
      (script.advance caller fuel start).program (script.advance caller fuel start).state := by
  induction fuel generalizing start with
  | zero => exact .refl
  | succ fuel ih =>
      simp only [advance]
      cases stepped : script.step? caller start with
      | none => exact .refl
      | some next =>
          obtain ⟨depth, program, state⟩ := start
          have rest := ih next
          cases program with
          | pure value => cases stepped
          | call op continuation =>
              simp only [step?, Option.map_eq_some_iff] at stepped
              obtain ⟨⟨reply, after⟩, answered, rfl⟩ := stepped
              exact .call (script.sound answered) rest
          | acquire continuation =>
              cases stepped
              exact .acquire rest
          | release continuation =>
              cases depth with
              | zero => cases stepped
              | succ depth =>
                  cases stepped
                  exact .release rest

end Script

/-- No thread but this one holds the lock. -/
def FreeFor (index : Nat) (threads : List (Thread system)) : Prop :=
  ∀ other (thread : Thread system), threads[other]? = some thread → 0 < thread.depth →
    other = index

theorem FreeFor.set {index : Nat} {threads : List (Thread system)} (free : FreeFor index threads)
    (moved : Thread system) : FreeFor index (threads.set index moved) := by
  intro other thread found held
  by_contra different
  rw [List.getElem?_set_ne (Ne.symm different)] at found
  exact different (free other thread found held)

private theorem path_set {index : Nat} {threads : List (Thread system)}
    {moved last : Thread system} {first middle final : system.State}
    (step : Step ⟨first, threads⟩ ⟨middle, threads.set index moved⟩)
    (rest : Relation.ReflTransGen Step ⟨middle, threads.set index moved⟩
      ⟨final, (threads.set index moved).set index last⟩) :
    Relation.ReflTransGen Step ⟨first, threads⟩ ⟨final, threads.set index last⟩ := by
  rw [List.set_set] at rest
  exact rest.head step

/-- A thread that no other keeps from the lock may run alone. -/
theorem Runs.reaches {index depth depth' : Nat} {command : system.Command}
    {program program' : Program system.signature system.Result} {state state' : system.State}
    (ran : Runs ⟨index, command⟩ depth program state depth' program' state')
    {threads : List (Thread system)} (here : threads[index]? = some ⟨command, depth, program⟩)
    (free : FreeFor index threads) :
    Relation.ReflTransGen Step ⟨state, threads⟩
      ⟨state', threads.set index ⟨command, depth', program'⟩⟩ := by
  induction ran generalizing threads with
  | refl => rw [← (List.getElem?_eq_some_iff.mp here).2, List.set_getElem_self]
  | call does _ ih =>
      have bound := (List.getElem?_eq_some_iff.mp here).1
      exact path_set (.call here does) (ih (List.getElem?_set_self bound) (free.set _))
  | acquire _ ih =>
      have bound := (List.getElem?_eq_some_iff.mp here).1
      exact path_set (.acquire here free) (ih (List.getElem?_set_self bound) (free.set _))
  | release _ ih =>
      have bound := (List.getElem?_eq_some_iff.mp here).1
      exact path_set (.release here) (ih (List.getElem?_set_self bound) (free.set _))

theorem Pool.initial_quiescent (state : system.State) : (Pool.initial state).Quiescent :=
  fun _ member => absurd member List.not_mem_nil

/-- While the lock is free, only a thread that is added can hold it. -/
theorem Pool.Quiescent.freeFor {pool : Pool system} (quiescent : pool.Quiescent)
    (added : Thread system) : FreeFor pool.threads.length (pool.threads ++ [added]) := by
  intro other thread found held
  rcases Nat.lt_trichotomy other pool.threads.length with below | same | above
  · rw [List.getElem?_append_left below] at found
    have unheld := quiescent thread (List.mem_of_getElem? found)
    omega
  · exact same
  · have beyond : (pool.threads ++ [added]).length ≤ other := by
      rw [List.length_append, List.length_singleton]
      exact above
    rw [List.getElem?_eq_none beyond] at found
    cases found

theorem set_appended (threads : List (Thread system)) (old new : Thread system) :
    (threads ++ [old]).set threads.length new = threads ++ [new] := by
  rw [List.set_append_right _ _ (Nat.le_refl _), Nat.sub_self, List.set_cons_zero]

/-- One step of a script is one step of the pool. -/
theorem Script.steps {script : Script system} {index : Nat} {command : system.Command}
    {threads : List (Thread system)} {configuration next : Configuration system system.Result}
    (stepped : script.step? ⟨index, command⟩ configuration = some next)
    (here : threads[index]? = some ⟨command, configuration.depth, configuration.program⟩)
    (free : FreeFor index threads) :
    Step ⟨configuration.state, threads⟩
      ⟨next.state, threads.set index ⟨command, next.depth, next.program⟩⟩ := by
  obtain ⟨depth, program, state⟩ := configuration
  cases program with
  | pure value => cases stepped
  | call op continuation =>
      simp only [step?, Option.map_eq_some_iff] at stepped
      obtain ⟨⟨reply, after⟩, answered, rfl⟩ := stepped
      exact .call here (script.sound answered)
  | acquire continuation =>
      cases stepped
      exact .acquire here free
  | release continuation =>
      cases depth with
      | zero => cases stepped
      | succ depth =>
          cases stepped
          exact .release here

/-- A command started while the lock is free may run alone. -/
theorem Pool.Quiescent.serves {pool : Pool system} (quiescent : pool.Quiescent)
    {command : system.Command} {depth : Nat} {program : Program system.signature system.Result}
    {state : system.State}
    (ran : Runs ⟨pool.threads.length, command⟩ 0 (system.body command) pool.state
      depth program state) :
    Relation.ReflTransGen Step pool
      ⟨state, pool.threads ++ [⟨command, depth, program⟩]⟩ := by
  have ready : (pool.threads ++ [Thread.start command])[pool.threads.length]? =
      some (Thread.start command) := List.getElem?_concat_length
  have path := ran.reaches ready (quiescent.freeFor _)
  rw [set_appended] at path
  exact path.head (.start pool command)

end Interaction
