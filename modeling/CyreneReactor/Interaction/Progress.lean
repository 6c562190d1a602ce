import CyreneReactor.Interaction.RelyGuarantee
import Mathlib.Data.List.Perm.Basic
import Mathlib.Logic.Hydra

namespace Interaction

/-! Pools whose threads can always go on.

A thread can be stopped only by the lock, and the lock by a thread that holds it.  So
as long as every call is answered, some thread goes on until all are over.
-/

namespace Program

variable {signature : Signature} {α : Type}

/-- What is left of a program after one step. -/
inductive After : Program signature α → Program signature α → Prop where
  | call {op : signature.Op} {next : signature.Answer op → Program signature α}
      (answer : signature.Answer op) : After (next answer) (.call op next)
  | acquire {next : Program signature α} : After next (.acquire next)
  | release {next : Program signature α} : After next (.release next)

theorem after_wellFounded : WellFounded (@After signature α) := by
  constructor
  intro program
  induction program with
  | pure value => exact ⟨_, fun _ after => by cases after⟩
  | call op next ih =>
      constructor
      intro left after
      cases after with
      | call answer => exact ih answer
  | acquire next ih | release next ih =>
      constructor
      intro left after
      cases after
      exact ih

end Program

variable {system : System}

/-- Every call is answered now. -/
def Pool.Answering (pool : Pool system) : Prop :=
  ∀ caller held op, ∃ answer next, system.exec caller held op pool.state answer next

/-- The thread is over and holds no lock. -/
def Thread.Over (thread : Thread system) : Prop :=
  thread.depth = 0 ∧ ∃ result, thread.program = .pure result

/-- A step of a thread that was started before. -/
def Proceeds (pool next : Pool system) : Prop :=
  Step pool next ∧ ∃ index old new state, pool.threads[index]? = some old ∧
    new.program.After old.program ∧ next = ⟨state, pool.threads.set index new⟩

namespace Discipline

variable {discipline : Discipline system}
variable {post : Caller system.Command → system.Result → system.State → Prop}
variable {pool : Pool system}

/-- A thread that is not over goes on when the lock does not keep it. -/
theorem Sound.proceeds (sound : discipline.Sound post pool) (answering : pool.Answering)
    {index : Nat} {thread : Thread system} (here : pool.threads[index]? = some thread)
    (unlocked : ∀ other (holder : Thread system), pool.threads[other]? = some holder →
      0 < holder.depth → other = index) :
    thread.Over ∨ ∃ next, Proceeds pool next := by
  obtain ⟨since, _, verified⟩ := sound.verified here
  obtain ⟨command, depth, program⟩ := thread
  cases program with
  | pure result => exact .inl ⟨verified.1, result, rfl⟩
  | call op next =>
      obtain ⟨answer, state, does⟩ := answering ⟨index, command⟩ (decide (0 < depth)) op
      exact .inr ⟨_, .call here does, index, _, _, state, here, .call answer, rfl⟩
  | acquire next =>
      exact .inr ⟨_, .acquire here unlocked, index, _, _, pool.state, here, .acquire, rfl⟩
  | release next =>
      cases depth with
      | zero => exact verified.elim
      | succ depth => exact .inr ⟨_, .release here, index, _, _, pool.state, here, .release, rfl⟩

/-- No pool is stuck before all threads are over. -/
theorem Sound.progress (sound : discipline.Sound post pool) (answering : pool.Answering) :
    (∀ thread ∈ pool.threads, thread.Over) ∨ ∃ next, Proceeds pool next := by
  by_cases holder : ∃ (index : Nat) (thread : Thread system), pool.threads[index]? = some thread ∧
      0 < thread.depth
  · obtain ⟨index, thread, here, holds⟩ := holder
    have alone : ∀ other (second : Thread system), pool.threads[other]? = some second →
        0 < second.depth → other = index :=
      fun other second there also => sound.exclusive there here also holds
    rcases sound.proceeds answering here alone with ended | proceeds
    · have free := ended.1
      omega
    · exact .inr proceeds
  · have free : ∀ index other (second : Thread system), pool.threads[other]? = some second →
        0 < second.depth → other = index :=
      fun index other second there holds => absurd ⟨other, second, there, holds⟩ holder
    by_cases stuck : ∃ next, Proceeds pool next
    · exact .inr stuck
    · refine .inl fun thread member => ?_
      obtain ⟨index, here⟩ := List.getElem?_of_mem member
      exact (sound.proceeds answering here (free index)).resolve_right stuck

end Discipline

/-- The threads of a pool have less to do after every step of theirs. -/
theorem proceeds_wellFounded : WellFounded fun next pool : Pool system => Proceeds pool next := by
  let left (pool : Pool system) : Multiset (Program system.signature system.Result) :=
    pool.threads.map Thread.program
  have smaller : Subrelation (fun next pool : Pool system => Proceeds pool next)
      (InvImage (Relation.CutExpand Program.After) left) := by
    rintro _ pool ⟨_, index, old, new, state, here, after, rfl⟩
    obtain ⟨bound, same⟩ := List.getElem?_eq_some_iff.mp here
    have replaced : (pool.threads.set index new).Perm (new :: pool.threads.eraseIdx index) :=
      List.set_perm_cons_eraseIdx bound new
    have present : (old :: pool.threads.eraseIdx index).Perm pool.threads := by
      rw [← same]
      exact List.getElem_cons_eraseIdx_perm bound
    have before : left pool = {old.program} +
        ↑((pool.threads.eraseIdx index).map Thread.program) :=
      Multiset.coe_eq_coe.mpr (present.map Thread.program).symm
    have later : left ⟨state, pool.threads.set index new⟩ = {new.program} +
        ↑((pool.threads.eraseIdx index).map Thread.program) :=
      Multiset.coe_eq_coe.mpr (replaced.map Thread.program)
    change Relation.CutExpand _ (left _) (left _)
    rw [before, later]
    exact Relation.cutExpand_single_add after _
  exact smaller.wf (InvImage.wf left Program.after_wellFounded.cutExpand)

/-- Where no pool is stuck before it is done, every pool comes to be done. -/
theorem proceeds_to_end {holds done : Pool system → Prop} {pool : Pool system}
    (progress : ∀ pool, holds pool → done pool ∨ ∃ next, Proceeds pool next)
    (kept : ∀ pool next, holds pool → Proceeds pool next → holds next) (initially : holds pool) :
    ∃ last, Relation.ReflTransGen Proceeds pool last ∧ done last := by
  induction pool using proceeds_wellFounded.induction with
  | h pool ih =>
      rcases progress pool initially with ended | ⟨next, proceeds⟩
      · exact ⟨pool, .refl, ended⟩
      · obtain ⟨last, path, ended⟩ := ih next proceeds (kept pool next initially proceeds)
        exact ⟨last, path.head proceeds, ended⟩

end Interaction
