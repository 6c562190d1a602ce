import CyreneReactor.Interaction.Section
import CyreneReactor.Lifecycle.Lawful

namespace CyreneReactor

open Interaction ReactorService

/-! How the service's programs are verified under the command lock: one rule for
each thing they do, and one relation that says what a section knows about its
deployment and the rest of the store.
-/

/-- What a step of a command may do: lawful operations under the lock, and
without it nothing that changes the state. -/
inductive Guarantee (environment : Environment) (service : ReactorService)
    (caller : Caller Command) : Bool → State → State → Prop where
  | held {op : Op} {state : State} {answer : op.Answer} {next : State}
      (performs : Performs environment caller true op state answer next)
      (lawful : op.Lawful service caller state) :
      Guarantee environment service caller true state next
  | unheld {state : State} : Guarantee environment service caller false state state

/-- The program, run under the lock from `state`, only makes lawful steps and
ends with `post`. -/
abbrev InSection {ε α : Type} (environment : Environment) (service : ReactorService)
    (caller : Caller Command) (program : Fallible productSignature ε α)
    (post : Except ε α → State → Prop) (state : State) : Prop :=
  @Held (service.system environment) (Except ε α) caller
    (Guarantee environment service caller true) 0 program.run post state

variable {environment : Environment} {service : ReactorService} {caller : Caller Command}
variable {ε α β : Type} {post : Except ε β → State → Prop} {state : State}

namespace InSection

theorem mono {program : Fallible productSignature ε β} {strong : Except ε β → State → Prop}
    (holds : InSection environment service caller program strong state)
    (implies : ∀ outcome after, strong outcome after → post outcome after) :
    InSection environment service caller program post state :=
  Held.mono holds implies

theorem bind {first : Fallible productSignature ε α} {next : α → Fallible productSignature ε β}
    (holds : InSection environment service caller first (fun outcome after =>
      match outcome with
      | .ok value => InSection environment service caller (next value) post after
      | .error raised => post (.error raised) after) state) :
    InSection environment service caller (first >>= next) post state :=
  Held.bind_run (Held.mono holds fun outcome _ rest => by cases outcome <;> exact rest)

theorem pure {value : β} (holds : post (.ok value) state) :
    InSection environment service caller (pure value) post state :=
  ⟨rfl, holds⟩

theorem throw {raised : ε} (holds : post (.error raised) state) :
    InSection environment service caller (throw raised) post state :=
  ⟨rfl, holds⟩

theorem locked {body : Fallible productSignature ε β}
    (holds : InSection environment service caller body post state) :
    InSection environment service caller (Fallible.locked body) post state :=
  Held.locked holds

theorem ofExcept_bind {outcome : Except ε α} {next : α → Fallible productSignature ε β}
    (holds : match outcome with
      | .ok value => InSection environment service caller (next value) post state
      | .error raised => post (.error raised) state) :
    InSection environment service caller (Fallible.ofExcept outcome >>= next) post state :=
  bind ⟨rfl, by cases outcome <;> exact holds⟩

/-- A computation that raises nothing, inside one that can. -/
theorem lift_bind {program : Program productSignature α}
    {next : α → Fallible productSignature ε β}
    (holds : @Held (service.system environment) α caller
      (Guarantee environment service caller true) 0 program
      (fun value after => InSection environment service caller (next value) post after) state) :
    InSection environment service caller (ExceptT.lift program >>= next) post state := by
  refine bind ?_
  change @Held (service.system environment) (Except ε α) caller
    (Guarantee environment service caller true) 0
    (program.bind fun value => Program.pure (Except.ok value)) _ state
  exact Held.bind (holds.mono fun value after rest => ⟨rfl, rest⟩)

theorem during {locals : LaunchLocals} {body : Service α}
    {goal : Except (LaunchLocals × Raised) α → State → Prop}
    (holds : InSection environment service caller body (fun outcome after =>
      goal (outcome.mapError (Prod.mk locals)) after) state) :
    InSection environment service caller (during locals body) goal state := by
  change @Held (service.system environment) _ caller
    (Guarantee environment service caller true) 0
    (body.run.bind fun outcome => Program.pure (outcome.mapError (Prod.mk locals))) _ state
  exact Held.bind (holds.mono fun outcome after rest => ⟨rfl, rest⟩)

theorem during_bind {locals : LaunchLocals} {body : Service α}
    {next : α → Fallible productSignature (LaunchLocals × Raised) β}
    {goal : Except (LaunchLocals × Raised) β → State → Prop}
    (holds : InSection environment service caller body (fun outcome after =>
      match outcome with
      | .ok value => InSection environment service caller (next value) goal after
      | .error raised => goal (.error (locals, raised)) after) state) :
    InSection environment service caller (ReactorService.during locals body >>= next) goal state :=
  bind (during (holds.mono fun outcome _ rest => by cases outcome <;> exact rest))

/-- The rule for a `try` whose handler catches `ServingEngineFailure`. -/
theorem catchFailure {body : Service α}
    {goal : Except Raised (Except ServingEngineFailure α) → State → Prop}
    (holds : InSection environment service caller body (fun outcome after =>
      match outcome with
      | .ok value => goal (.ok (.ok value)) after
      | .error (.serving failure) => goal (.ok (.error failure)) after
      | .error raised => goal (.error raised) after) state) :
    InSection environment service caller (catchFailure body) goal state := by
  change @Held (service.system environment) _ caller
    (Guarantee environment service caller true) 0 (body.run.bind _) _ state
  refine Held.bind (holds.mono fun outcome after rest => ?_)
  match outcome, rest with
  | .ok value, rest => exact ⟨rfl, rest⟩
  | .error (.serving failure), rest => exact ⟨rfl, rest⟩
  | .error (.product error), rest => exact ⟨rfl, rest⟩
  | .error (.other kind), rest => exact ⟨rfl, rest⟩

/-- One call, when it is lawful. -/
theorem call {op : Op} {goal : Except Raised op.Answer → State → Prop}
    (lawful : op.Lawful service caller state)
    (holds : ∀ answer, environment state.database op answer → Answers state op answer →
      goal (.ok answer) (state.after caller true op answer)) :
    InSection environment service caller (call op) goal state := by
  refine Held.perform_run fun answer after does => ?_
  obtain ⟨admitted, answers, rfl⟩ := does
  exact ⟨.held ⟨admitted, answers, rfl⟩ lawful, holds answer admitted answers⟩

end InSection

end CyreneReactor
