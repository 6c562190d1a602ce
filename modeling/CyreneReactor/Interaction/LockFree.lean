import CyreneReactor.Interaction.RelyGuarantee

namespace Interaction

/-! Code that leaves the lock alone.

Such code runs with the lock held all along or not at all, so one verification
serves both.  Between any two of its calls the others may move; what is known in
between is a property their moves keep.
-/

variable {system : System} {α β ε : Type}

namespace Discipline

variable (discipline : Discipline system)

/-- The program takes and gives back no lock, keeps the discipline from `state`
on, whatever the others do, and ends in a state that satisfies `post`. -/
def LockFree (caller : Caller system.Command) (held : Bool) :
    Program system.signature α → (α → system.State → Prop) → system.State → Prop
  | .pure value, post, state => post value state
  | .call op next, post, state =>
      ∀ before, discipline.rely caller held state before →
        ∀ answer after, system.exec caller held op before answer after →
          discipline.guarantee caller held before after ∧
          LockFree caller held (next answer) post after
  | .acquire _, _, _ => False
  | .release _, _, _ => False

/-- The moves of the others keep a property. -/
def Stable (caller : Caller system.Command) (held : Bool) (holds : system.State → Prop) : Prop :=
  ∀ ⦃state next⦄, discipline.interferes caller held state next → holds state → holds next

variable {discipline} {caller : Caller system.Command} {held : Bool} {state next : system.State}

theorem Stable.rely {holds : system.State → Prop} (stable : discipline.Stable caller held holds)
    (relied : discipline.rely caller held state next) (before : holds state) : holds next := by
  induction relied with
  | refl => exact before
  | tail _ step ih => exact stable step ih

theorem Stable.and {left right : system.State → Prop}
    (first : discipline.Stable caller held left) (second : discipline.Stable caller held right) :
    discipline.Stable caller held fun state => left state ∧ right state :=
  fun _ _ step both => ⟨first step both.1, second step both.2⟩

namespace LockFree

theorem mono {strong weak : α → system.State → Prop} {program : Program system.signature α}
    (verified : discipline.LockFree caller held program strong state)
    (implies : ∀ value after, strong value after → weak value after) :
    discipline.LockFree caller held program weak state := by
  induction program generalizing state with
  | pure value => exact implies _ _ verified
  | call op continuation ih =>
      intro before relied answer after does
      obtain ⟨guaranteed, rest⟩ := verified before relied answer after does
      exact ⟨guaranteed, ih answer rest⟩
  | acquire continuation ih => exact verified.elim
  | release continuation ih => exact verified.elim

theorem bind {program : Program system.signature α} {continuation : α → Program system.signature β}
    {post : β → system.State → Prop}
    (verified : discipline.LockFree caller held program
      (fun value after => discipline.LockFree caller held (continuation value) post after) state) :
    discipline.LockFree caller held (program.bind continuation) post state := by
  induction program generalizing state with
  | pure value => exact verified
  | call op rest ih =>
      intro before relied answer after does
      obtain ⟨guaranteed, later⟩ := verified before relied answer after does
      exact ⟨guaranteed, ih answer later⟩
  | acquire rest ih => exact verified.elim
  | release rest ih => exact verified.elim

section Fallible

variable {post : Except ε β → system.State → Prop}

theorem bind_run {first : Fallible system.signature ε α}
    {continuation : α → Fallible system.signature ε β}
    (verified : discipline.LockFree caller held first.run (fun outcome after =>
      match outcome with
      | .ok value => discipline.LockFree caller held (continuation value).run post after
      | .error raised => post (.error raised) after) state) :
    discipline.LockFree caller held (first >>= continuation).run post state := by
  rw [ExceptT.run_bind]
  refine bind (verified.mono fun outcome after rest => ?_)
  cases outcome with
  | ok value => exact rest
  | error raised => exact rest

theorem pure_run {value : β} (holds : post (.ok value) state) :
    discipline.LockFree caller held (pure value : Fallible system.signature ε β).run post state :=
  holds

theorem throw_run {raised : ε} (holds : post (.error raised) state) :
    discipline.LockFree caller held (throw raised : Fallible system.signature ε β).run post state :=
  holds

/-- Code that ended with `outcome`, and the code after it. -/
theorem ofExcept_bind {outcome : Except ε α} {continuation : α → Fallible system.signature ε β}
    (raises : ∀ raised, outcome = .error raised → post (.error raised) state)
    (returns : ∀ value, outcome = .ok value →
      discipline.LockFree caller held (continuation value).run post state) :
    discipline.LockFree caller held (Fallible.ofExcept outcome >>= continuation).run post state := by
  apply bind_run
  cases outcome with
  | ok value => exact returns value rfl
  | error raised => exact raises raised rfl

/-- Code whose outcome is handled by the code after it. -/
theorem attempt_bind {body : Fallible system.signature ε α}
    {continuation : Except ε α → Fallible system.signature ε β}
    (verified : discipline.LockFree caller held body.run
      (fun outcome after => discipline.LockFree caller held (continuation outcome).run post after)
      state) :
    discipline.LockFree caller held (ExceptT.lift body.attempt >>= continuation).run post state := by
  apply bind_run
  exact bind verified

/-- One call, from any state that satisfies what the others keep. -/
theorem call_bind {op : system.signature.Op} {holds : system.State → Prop}
    {continuation : system.signature.Answer op → Fallible system.signature ε β}
    (stable : discipline.Stable caller held holds) (here : holds state)
    (step : ∀ before answer after, holds before → system.exec caller held op before answer after →
      discipline.guarantee caller held before after ∧
        discipline.LockFree caller held (continuation answer).run post after) :
    discipline.LockFree caller held (Fallible.perform op >>= continuation).run post state := by
  apply bind_run
  intro before relied answer after does
  exact step before answer after (stable.rely relied here) does

end Fallible

end LockFree

/-- Lock-free code, and the code after it. -/
theorem Verified.of_lockFree {program : Program system.signature α}
    {continuation : α → Program system.signature β} {post : β → system.State → Prop} {depth : Nat}
    (verified : discipline.LockFree caller (decide (0 < depth)) program
      (fun value after => discipline.Verified caller depth (continuation value) post after) state) :
    discipline.Verified caller depth (program.bind continuation) post state := by
  induction program generalizing state with
  | pure value => exact verified
  | call op rest ih =>
      intro before relied answer after does
      obtain ⟨guaranteed, later⟩ := verified before relied answer after does
      exact ⟨guaranteed, ih answer later⟩
  | acquire rest ih => exact verified.elim
  | release rest ih => exact verified.elim

/-- Lock-free code on its own. -/
theorem Verified.unlocked {program : Program system.signature α} {post : α → system.State → Prop}
    (verified : discipline.LockFree caller false program post state) :
    discipline.Verified caller 0 program post state := by
  rw [← Program.bind_pure program]
  exact of_lockFree (verified.mono fun _ _ holds => ⟨rfl, holds⟩)

/-- Lock-free code as the body of a `with lock:`. -/
theorem Verified.of_locked {body : Program system.signature α} {post : α → system.State → Prop}
    (verified : ∀ before, discipline.rely caller false state before →
      discipline.lockInvariant before →
      discipline.LockFree caller true body
        (fun value after => ∀ later, discipline.rely caller true after later →
          discipline.lockInvariant later ∧ post value later) before) :
    discipline.Verified caller 0 (Program.locked body) post state := by
  intro before relied invariant
  refine of_lockFree ((verified before relied invariant).mono ?_)
  intro value after holds later relied
  obtain ⟨invariant, ends⟩ := holds later relied
  exact ⟨invariant, rfl, ends⟩

end Discipline

end Interaction
