import CyreneReactor.Interaction.Crash
import CyreneReactor.Lifecycle.Discipline
import CyreneReactor.Lifecycle.Walks

namespace CyreneReactor

open Interaction ReactorService

/-! The discipline that commands keep even when the process may stop inside a section.

All that holds when the lock is free is that the store is consistent, which every lawful
operation keeps.
-/

/-- With the lock held every step is lawful, and the store is always consistent. -/
def durable (environment : Environment) (service : ReactorService) :
    Discipline (service.system environment) where
  guarantee := Guarantee environment service
  lockInvariant := Consistent
  fresh index state := Consistent state ∧ Unseen index state
  lockInvariant_of_unheld := by
    intro caller state next consistent guaranteed
    cases guaranteed
    exact consistent
  fresh_of_guarantee := by
    intro index caller held state next fresh guaranteed different
    obtain ⟨consistent, unseen⟩ := fresh
    have moves : Moves environment service state next := ⟨caller, held, guaranteed⟩
    refine ⟨moves.consistent consistent, ?_⟩
    cases guaranteed with
    | unheld => exact unseen
    | held performs lawful =>
        obtain ⟨_, _, rfl⟩ := performs
        intro event member
        unfold State.after at member
        split at member
        · rcases List.mem_append.mp member with earlier | last
          · exact unseen event earlier
          · rw [List.mem_singleton.mp last]
            exact different
        · exact unseen event member

section Programs

variable {environment : Environment} {service : ReactorService} {caller : Caller Command}
variable {state : State} {α : Type}

theorem durable_durable : (durable environment service).Durable := by
  intro caller held state next consistent guaranteed
  have moves : Moves environment service state next := ⟨caller, held, guaranteed⟩
  exact moves.consistent consistent

theorem durable_exclusive : (durable environment service).Exclusive := by
  intro caller state next guaranteed
  cases guaranteed
  rfl

/-- What the others do meanwhile. -/
abbrev Meanwhile (environment : Environment) (service : ReactorService) (caller : Caller Command) :
    State → State → Prop :=
  (durable environment service).rely caller false

theorem Meanwhile.evolves {next : State} (relied : Meanwhile environment service caller state next) :
    Evolves environment service state next :=
  relied.lift id fun _ _ interferes => by
    obtain ⟨other, otherHeld, _, _, guaranteed⟩ := interferes
    exact ⟨other, otherHeld, guaranteed⟩

/-- The command keeps the discipline from `state` on. -/
abbrev Endures (environment : Environment) (service : ReactorService) (caller : Caller Command)
    (program : Service Deployment) (state : State) : Prop :=
  (durable environment service).Verified caller 0 program.run (fun _ _ => True) state

namespace Endures

/-- What makes no mark is answered in a state the others have reached. -/
theorem silent_bind {first : Service α} {next : α → Service Deployment} (silent : Silent first.run)
    (rest : ∀ value after, Meanwhile environment service caller state after →
      Endures environment service caller (next value) after) :
    Endures environment service caller (first >>= next) state := by
  unfold Endures
  rw [ExceptT.run_bind]
  generalize first.run = program at silent
  change (durable environment service).Verified caller 0 (program.bind _) _ state
  clear first
  revert rest
  induction program generalizing state with
  | pure outcome =>
      intro rest
      cases outcome with
      | ok value => exact rest value state .refl
      | error raised => exact ⟨rfl, trivial⟩
  | call op continued ih =>
      intro rest before relied answer after does
      obtain ⟨_, _, rfl⟩ := does
      have same : State.after before caller (decide (0 < 0)) op answer = before := by
        simp only [State.after, silent.1.2, Nat.lt_irrefl, decide_false, Bool.false_and,
          Bool.false_eq_true, if_false]
        rfl
      rw [same]
      exact ⟨.unheld, ih answer (silent.2 answer) fun value after later =>
        rest value after (relied.trans later)⟩
  | acquire | release => exact silent.elim

/-- What a read was answered holds of the state it was answered in. -/
theorem read_bind {op : StoreOp} {next : op.Answer → Service Deployment} (reads : op.writes = false)
    (rest : ∀ after, Meanwhile environment service caller state after →
      Endures environment service caller (next (op.run after.database).1) after) :
    Endures environment service caller (store op >>= next) state := by
  intro before relied answer after does
  obtain ⟨_, answers, rfl⟩ := does
  have same : State.after before caller (decide (0 < 0)) (.store op) answer = before :=
    State.after_unrecorded reads
  rw [same]
  have answers : answer = (op.run (State.database before)).1 := answers
  subst answers
  exact ⟨.unheld, rest before relied⟩

/-- A section begins in a state the others have reached, and leaves a consistent store. -/
theorem locked {body : Service Deployment} (fresh : Consistent state ∧ Unseen caller.index state)
    (sections : ∀ before, Meanwhile environment service caller state before → Consistent before →
      Section service before caller body) :
    Endures environment service caller (Fallible.locked body) state := by
  have verified : (durable environment service).Verified caller 0
      ((Program.locked body.run).bind .pure) (fun _ _ => True) state := by
    apply Discipline.Verified.locked durable_exclusive
    intro before relied consistent
    obtain ⟨_, unseen⟩ := (durable environment service).fresh_of_rely fresh relied
    have here := sections before relied consistent
    have held : InSection environment service caller body
      (Served environment service caller before) before := here.inSection consistent unseen
    apply (Held.weaken (Held.traced_locked held) fun _ _ both => both.1).mono
    intro outcome after ended
    have evolved := (here.served consistent unseen ended.2.release_last).2
    exact ⟨evolved.consistent consistent, rfl, trivial⟩
  rw [Program.bind_pure] at verified
  exact verified

theorem command (fresh : Consistent state ∧ Unseen caller.index state)
    (locks : ∀ id, caller.command ≠ .get id) :
    Endures environment service caller (service.body caller.command) state := by
  rw [service.body_eq_locked locks]
  exact locked fresh fun _ _ _ => .command locks

theorem requireDeployment_bind {id : Uuid} {next : Deployment → Service Deployment}
    (rest : ∀ deployment after, Meanwhile environment service caller state after →
      after.database.getDeployment id = some deployment →
      Endures environment service caller (next deployment) after) :
    Endures environment service caller (requireDeployment id >>= next) state := by
  unfold requireDeployment
  rw [bind_assoc]
  apply read_bind rfl
  intro after relied
  cases read : (StoreOp.run after.database (.getDeployment id)).1 with
  | none => exact ⟨rfl, trivial⟩
  | some deployment => exact rest deployment after relied read

theorem requireEndpoint_bind {id : Uuid} {next : Endpoint → Service Deployment}
    (rest : ∀ endpoint after, Meanwhile environment service caller state after →
      after.database.getEndpoint id = some endpoint →
      Endures environment service caller (next endpoint) after) :
    Endures environment service caller (requireEndpoint id >>= next) state := by
  unfold requireEndpoint
  rw [bind_assoc]
  apply read_bind rfl
  intro after relied
  cases read : (StoreOp.run after.database (.getEndpoint id)).1 with
  | none => exact ⟨rfl, trivial⟩
  | some endpoint => exact rest endpoint after relied read

/-- The reads of a `get_deployment`, and the section it may end with. -/
theorem observeLive {slot : Slot} {id endpointId : Uuid} (command : caller.command = .get id)
    (fresh : Consistent state ∧ Unseen caller.index state)
    (here : state.database.slot id = some slot)
    (names : slot.deployment.endpointId = some endpointId)
    (live : slot.deployment.observedState = .ready ∨ slot.deployment.observedState = .degraded) :
    Endures environment service caller (service.observeLive slot.deployment endpointId) state := by
  apply requireEndpoint_bind
  intro endpoint second between read
  apply silent_bind (silent_store rfl)
  intro executionRef third toThird
  cases executionRef with
  | none => exact ⟨rfl, trivial⟩
  | some executionRef =>
      apply silent_bind (silent_inspectExecution service _ _ _)
      intro observation fourth toFourth
      unfold ReactorService.reconcile
      split
      · apply silent_bind silent_utcNow
        intro now fifth toFifth
        have path := (toThird.trans toFourth).trans toFifth
        apply locked ((durable environment service).fresh_of_rely fresh (between.trans path))
        intro before toBefore _
        have later := Meanwhile.evolves (path.trans toBefore)
        have between := Meanwhile.evolves between
        obtain ⟨current, there, _⟩ := Evolves.slot (between.trans later) fresh.1 here
        exact .reconcile command there (Database.slot_eq_some here).2.1 live
          (Concurrently.sameRows fresh.1 here names live between read later there)
      · exact ⟨rfl, trivial⟩

theorem getDeployment {id : Uuid} (command : caller.command = .get id)
    (fresh : Consistent state ∧ Unseen caller.index state) :
    Endures environment service caller (service.getDeployment id) state := by
  apply requireDeployment_bind
  intro deployment after relied read
  have fresh : Consistent after ∧ Unseen caller.index after :=
    (durable environment service).fresh_of_rely fresh relied
  have here := Database.slot_of_getDeployment read
  split
  · exact observeLive command fresh here (by assumption) (.inl (by assumption))
  · exact observeLive command fresh here (by assumption) (.inr (by assumption))
  · exact ⟨rfl, trivial⟩

/-- Every command endures. -/
theorem body (fresh : Consistent state ∧ Unseen caller.index state) :
    Endures environment service caller (service.body caller.command) state := by
  cases command : caller.command with
  | get id => exact getDeployment command fresh
  | create | stop | restart =>
      rw [← command]
      exact Endures.command fresh (by simp [command])

end Endures

end Programs

/-- What any number of commands and crashes reach from an empty database. -/
abbrev Survived (environment : Environment) (service : ReactorService)
    (lost : Except Raised Deployment) (pool : Pool (service.system environment)) : Prop :=
  @Survives (service.system environment) lost State.initial pool

section Pools

variable {environment : Environment} {service : ReactorService} {lost : Except Raised Deployment}
variable {pool next : Pool (service.system environment)}

theorem Survived.sound (survived : Survived environment service lost pool) :
    (durable environment service).Sound (fun _ _ _ => True) pool ∧ Consistent pool.state := by
  apply Discipline.Sound.of_survives durable_durable
  · intro index command state fresh
    have holds : Endures environment service ⟨index, command⟩ (service.body command) state :=
      Endures.body fresh
    exact holds
  · exact fun _ _ => trivial
  · exact initial_consistent
  · exact fun _ => ⟨initial_consistent, fun _ member => absurd member List.not_mem_nil⟩
  · exact survived

/-- A step of a command is lawful, whatever crashes came before it. -/
theorem Survived.moves (survived : Survived environment service lost pool)
    (step : Step pool next) : Moves environment service pool.state next.state := by
  obtain ⟨sound, _⟩ := survived.sound
  have bodies : ∀ command, (durable environment service).Verified ⟨pool.threads.length, command⟩ 0
      (service.body command).attempt (fun _ _ => True) pool.state := fun command =>
    have holds : Endures environment service ⟨pool.threads.length, command⟩ (service.body command)
      pool.state := Endures.body (sound.fresh (Nat.le_refl _))
    holds
  rcases (sound.step bodies step).2 with same | ⟨caller, held, guaranteed⟩
  · rw [same]
    exact ⟨⟨0, .get ⟨0⟩⟩, false, .unheld⟩
  · exact ⟨caller, held, guaranteed⟩

theorem Survived.evolves (survived : Survived environment service lost pool)
    (path : Relation.ReflTransGen (CrashStep lost) pool next) :
    Evolves environment service pool.state next.state := by
  induction path with
  | refl => exact .refl
  | tail before step ih =>
      cases step with
      | crash => exact ih
      | step step => exact ih.tail (Survived.moves (Relation.ReflTransGen.trans survived before) step)

end Pools

end CyreneReactor
