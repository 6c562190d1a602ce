import CyreneReactor.Interaction.Program

namespace Interaction

/-! Pools of programs that interleave on one state and exclude each other by
one re-entrant lock.  `Runs` is the same semantics for a program left alone.
-/

/-- Who performs a call: the thread's place in its pool and what it was asked
to do. -/
structure Caller (Command : Type) where
  index : Nat
  command : Command
deriving DecidableEq, Repr

/-- A shared state, the commands a thread can be started with, and what one
call does.  `held` says whether the caller holds the lock. -/
structure System where
  signature : Signature
  State : Type
  Command : Type
  Result : Type
  body : Command → Program signature Result
  exec : Caller Command → (held : Bool) → (op : signature.Op) →
    State → signature.Answer op → State → Prop

variable {system : System}

/-- A started command: how often it holds the lock and what it still has to do. -/
structure Thread (system : System) where
  command : system.Command
  depth : Nat
  program : Program system.signature system.Result

def Thread.start (command : system.Command) : Thread system :=
  ⟨command, 0, system.body command⟩

def Thread.held (thread : Thread system) : Bool := decide (0 < thread.depth)

structure Pool (system : System) where
  state : system.State
  threads : List (Thread system)

def Pool.initial (state : system.State) : Pool system := ⟨state, []⟩

/-- The caller that thread `index` of a pool is. -/
def Thread.caller (thread : Thread system) (index : Nat) : Caller system.Command :=
  ⟨index, thread.command⟩

/-- One atomic step.  A thread takes the lock only when no other thread holds
it; calls are not restricted by the lock. -/
inductive Step : Pool system → Pool system → Prop where
  | start (pool : Pool system) (command : system.Command) :
      Step pool { pool with threads := pool.threads ++ [Thread.start command] }
  | call {pool : Pool system} {index : Nat} {command : system.Command} {depth : Nat}
      {op : system.signature.Op} {next answer} {state : system.State}
      (here : pool.threads[index]? = some ⟨command, depth, .call op next⟩)
      (does : system.exec ⟨index, command⟩ (decide (0 < depth)) op pool.state answer state) :
      Step pool ⟨state, pool.threads.set index ⟨command, depth, next answer⟩⟩
  | acquire {pool : Pool system} {index : Nat} {command : system.Command} {depth : Nat} {next}
      (here : pool.threads[index]? = some ⟨command, depth, .acquire next⟩)
      (free : ∀ other (thread : Thread system), pool.threads[other]? = some thread →
        0 < thread.depth → other = index) :
      Step pool ⟨pool.state, pool.threads.set index ⟨command, depth + 1, next⟩⟩
  | release {pool : Pool system} {index : Nat} {command : system.Command} {depth : Nat} {next}
      (here : pool.threads[index]? = some ⟨command, depth + 1, .release next⟩) :
      Step pool ⟨pool.state, pool.threads.set index ⟨command, depth, next⟩⟩

/-- Every pool some interleaving of any commands reaches from `initial`. -/
def Reachable (initial : system.State) : Pool system → Prop :=
  Relation.ReflTransGen Step (Pool.initial initial)

theorem Reachable.step {initial : system.State} {pool next : Pool system}
    (reached : Reachable initial pool) (step : Step pool next) : Reachable initial next :=
  Relation.ReflTransGen.tail reached step

/-- No thread holds the lock. -/
def Pool.Quiescent (pool : Pool system) : Prop :=
  ∀ thread ∈ pool.threads, thread.depth = 0

/-- A step never renames a thread: its command stays what it was started with. -/
theorem Step.command_of_thread {pool next : Pool system} (step : Step pool next)
    {index : Nat} {thread : Thread system} (found : pool.threads[index]? = some thread) :
    ∃ after, next.threads[index]? = some after ∧ after.command = thread.command := by
  have replaced : ∀ (moved : Nat) (old new : Thread system),
      pool.threads[moved]? = some old → new.command = old.command →
      ∃ after, (pool.threads.set moved new)[index]? = some after ∧
        after.command = thread.command := by
    intro moved old new here same
    by_cases equal : moved = index
    · subst moved
      rw [found, Option.some.injEq] at here
      subst old
      have bound := (List.getElem?_eq_some_iff.mp found).1
      exact ⟨new, List.getElem?_set_self bound, same⟩
    · exact ⟨thread, by rw [List.getElem?_set_ne equal, found], rfl⟩
  cases step with
  | start command =>
      have bound := (List.getElem?_eq_some_iff.mp found).1
      exact ⟨thread, by rw [List.getElem?_append_left bound, found], rfl⟩
  | call here does => exact replaced _ _ _ here rfl
  | acquire here free => exact replaced _ _ _ here rfl
  | release here => exact replaced _ _ _ here rfl

/-- One program run alone: `Runs caller depth program state` relates a
configuration to every configuration it can reach without other threads. -/
inductive Runs (caller : Caller system.Command) {α : Type} :
    Nat → Program system.signature α → system.State →
    Nat → Program system.signature α → system.State → Prop where
  | refl {depth program state} : Runs caller depth program state depth program state
  | call {depth op next answer state middle depth' program' state'}
      (does : system.exec caller (decide (0 < depth)) op state answer middle)
      (rest : Runs caller depth (next answer) middle depth' program' state') :
      Runs caller depth (.call op next) state depth' program' state'
  | acquire {depth next state depth' program' state'}
      (rest : Runs caller (depth + 1) next state depth' program' state') :
      Runs caller depth (.acquire next) state depth' program' state'
  | release {depth next state depth' program' state'}
      (rest : Runs caller depth next state depth' program' state') :
      Runs caller (depth + 1) (.release next) state depth' program' state'

namespace Runs

variable {α : Type} {caller : Caller system.Command}

theorem trans {first middle last : Nat} {p q r : Program system.signature α}
    {s t u : system.State} (left : Runs caller first p s middle q t)
    (right : Runs caller middle q t last r u) : Runs caller first p s last r u := by
  induction left with
  | refl => exact right
  | call does _ ih => exact .call does (ih right)
  | acquire _ ih => exact .acquire (ih right)
  | release _ ih => exact .release (ih right)

theorem call_last {first depth : Nat} {p : Program system.signature α} {op next answer}
    {s t u : system.State} (before : Runs caller first p s depth (.call op next) t)
    (does : system.exec caller (decide (0 < depth)) op t answer u) :
    Runs caller first p s depth (next answer) u :=
  before.trans (.call does .refl)

theorem acquire_last {first depth : Nat} {p next : Program system.signature α}
    {s t : system.State} (before : Runs caller first p s depth (.acquire next) t) :
    Runs caller first p s (depth + 1) next t :=
  before.trans (.acquire .refl)

theorem release_last {first depth : Nat} {p next : Program system.signature α}
    {s t : system.State} (before : Runs caller first p s (depth + 1) (.release next) t) :
    Runs caller first p s depth next t :=
  before.trans (.release .refl)

end Runs

end Interaction
