import CyreneReactor.Interaction.Progress
import CyreneReactor.Lifecycle.Discipline
import CyreneReactor.Lifecycle.Guarded
import CyreneReactor.Service.Script

namespace CyreneReactor

open Interaction ReactorService

/-! The command lock.

What leaves a trace is done by the one thread that holds it, and it never keeps the
commands from coming to their end.
-/

variable {environment : Environment} {service : ReactorService}

section Pools

variable {pool : Pool (service.system environment)}

theorem Reached.sound_trivially (reached : Reached environment service pool) :
    (discipline environment service fun _ => True).Sound (fun _ _ _ => True) pool :=
  reached.sound fun _ _ _ _ _ _ _ _ => trivial

/-- Every thread goes on as its command may. -/
theorem Reached.calling (reached : Reached environment service pool) :
    Calling Guarded (fun _ _ => True) pool := by
  induction reached with
  | refl => exact fun thread member => absurd member List.not_mem_nil
  | tail before step ih =>
      apply ih.step _ step fun _ _ _ _ _ _ => trivial
      intro command
      exact (guards_body service command).mono fun _ _ _ => trivial

end Pools

/-- What leaves a trace is done under the command lock. -/
structure ActsUnderLock (pool : Pool (service.system environment)) : Prop where
  guarded : ∀ {index depth : Nat} {command : Command} {op : Op}
    {next : op.Answer → Program productSignature (Except Raised Deployment)},
    pool.threads[index]? = some ⟨command, depth, .call op next⟩ → Guarded depth op
  alone : ∀ {left right : Nat} {first second : Thread (service.system environment)},
    pool.threads[left]? = some first → pool.threads[right]? = some second →
    0 < first.depth → 0 < second.depth → left = right
  released : ∀ {index depth : Nat} {command : Command} {result : Except Raised Deployment},
    pool.threads[index]? = some ⟨command, depth, .pure result⟩ → depth = 0

/-- Writes, reports, drawn ids and every engine call but an inspection are those of the
one thread that holds the lock, and no command keeps it. -/
theorem only_the_holder_acts (environment : Environment) (service : ReactorService)
    {pool : Pool (service.system environment)} (reached : Reached environment service pool) :
    ActsUnderLock pool where
  guarded here := (reached.calling _ (List.mem_of_getElem? here)).1
  alone := reached.sound_trivially.exclusive
  released here := by
    obtain ⟨since, _, verified⟩ := reached.sound_trivially.verified here
    exact verified.1

/-- A restart holds the lock, which the others wait for. -/
theorem only_the_holder_acts_sampled :
    ActsUnderLock (Sample.contended Sample.meets) ∧
      (Sample.contended Sample.meets).threads.map (·.depth) = [0, 0, 2, 0] :=
  ⟨only_the_holder_acts .unrestricted Sample.service (Sample.contended_reaches _), rfl⟩

section Progress

variable {pool : Pool (service.system .unrestricted)}

/-- Every id was drawn. -/
def State.Exhausted (state : State) : Prop := ∀ id, id ∈ issued state.journal

theorem answering_of_not_exhausted (fresh : ¬State.Exhausted pool.state) : pool.Answering := by
  intro caller held op
  have answered : ∀ op : Op, ∃ answer, Answers pool.state op answer := by
    intro op
    cases op with
    | utcNow => exact ⟨Datetime.epoch, trivial⟩
    | uuid4 => exact not_forall.mp fresh
    | store op => exact ⟨_, rfl⟩
    | port engine call => cases call <;> exact ⟨.error (.other .typeError), trivial⟩
    | activity call => exact ⟨(), trivial⟩
  obtain ⟨answer, answers⟩ := answered op
  exact ⟨answer, _, trivial, answers, rfl⟩

/-- All commands are over, or every id was drawn. -/
def Ended (pool : Pool (service.system .unrestricted)) : Prop :=
  (∀ thread ∈ pool.threads, thread.Over) ∨ State.Exhausted pool.state

end Progress

/-- The commands never lock each other out: some of them goes on until all are over. -/
theorem commands_come_to_their_end (service : ReactorService)
    {pool : Pool (service.system .unrestricted)} (reached : Reached .unrestricted service pool) :
    (Ended pool ∨ ∃ next, Proceeds pool next) ∧
      ∃ last, Relation.ReflTransGen Proceeds pool last ∧ Ended last := by
  have progress : ∀ pool, Reached .unrestricted service pool →
      Ended pool ∨ ∃ next, Proceeds pool next := by
    intro pool reached
    by_cases exhausted : State.Exhausted pool.state
    · exact .inl (.inr exhausted)
    · exact (reached.sound_trivially.progress (answering_of_not_exhausted exhausted)).imp_left .inl
  refine ⟨progress pool reached, proceeds_to_end progress ?_ reached⟩
  exact fun pool next reached proceeds => Reachable.step reached proceeds.1

/-- Two commands wait for a third, and none of the three is over. -/
theorem commands_come_to_their_end_sampled :
    (Ended (Sample.contended Sample.meets) ∨
      ∃ next, Proceeds (Sample.contended Sample.meets) next) ∧
      ∃ last, Relation.ReflTransGen Proceeds (Sample.contended Sample.meets) last ∧ Ended last :=
  commands_come_to_their_end Sample.service (Sample.contended_reaches _)

end CyreneReactor
