import CyreneReactor.Guarantees.CommandLock
import CyreneReactor.Interaction.Linearization
import CyreneReactor.Lifecycle.Walks

namespace CyreneReactor

open Interaction ReactorService

/-! Every interleaving of commands is a sequence of commands run alone.

A command that holds the lock throughout is one entry of the sequence, with the result it
came to; a read is at most one, the commit of its reconcile.  The sequence only grows, so
a command that was over before another was started comes before it.
-/

variable {environment : Environment} {service : ReactorService}

/-- The commit of a reconcile, as a read ends with it. -/
def commitOf (deployment : Deployment) (endpoint : Endpoint) (observation : EngineObservation)
    (now : Datetime) : Program productSignature (Except Raised Deployment) :=
  (Fallible.locked (compareAndSave (reconciledDeployment deployment observation now)
    (reconciledEndpoint endpoint observation now) deployment.resourceVersion)).attempt

/-- What a command does under the lock. -/
def SectionOf (service : ReactorService) :
    Command → Program productSignature (Except Raised Deployment) → Prop
  | .get _, program => ∃ deployment endpoint observation now,
      program = commitOf deployment endpoint observation now
  | command, program => program = (service.body command).attempt

section Enters

variable {α : Type} {sections : Program productSignature (Except Raised Deployment) → Prop}

theorem enters_bind {first : Service α} {next : α → Service Deployment}
    (silent : Silent first.run) (rest : ∀ value, (next value).run.Enters sections) :
    (first >>= next).run.Enters sections := by
  rw [ExceptT.run_bind]
  generalize first.run = program at silent
  change (program.bind _).Enters sections
  induction program with
  | pure outcome =>
      cases outcome with
      | ok value => exact rest value
      | error raised => trivial
  | call op continued ih => exact fun answer => ih answer (silent.2 answer)
  | acquire | release => exact silent.elim

theorem enters_observeLive (service : ReactorService) (deployment : Deployment) (endpointId : Uuid)
    (id : Uuid) : (service.observeLive deployment endpointId).run.Enters
      (SectionOf service (.get id)) := by
  apply enters_bind (silent_requireEndpoint endpointId)
  intro endpoint
  apply enters_bind (silent_store rfl)
  intro executionRef
  cases executionRef with
  | none => trivial
  | some executionRef =>
      apply enters_bind (silent_inspectExecution service deployment endpoint executionRef)
      intro observation
      unfold reconcile
      split
      · apply enters_bind silent_utcNow
        exact fun now => ⟨deployment, endpoint, observation, now, rfl⟩
      · trivial

theorem enters_body (service : ReactorService) (command : Command) :
    (service.body command).attempt.Enters (SectionOf service command) := by
  cases command with
  | create | stop | restart => exact rfl
  | get id =>
      apply enters_bind (silent_requireDeployment id)
      intro deployment
      split
      · exact enters_observeLive service deployment _ id
      · exact enters_observeLive service deployment _ id
      · trivial

end Enters

/-- The commit gives back the lock only at its end. -/
theorem held_compareAndSave {caller : Caller Command} (deployment : Deployment)
    (endpoint : Endpoint) (version : Nat) (state : State) :
    @Held (service.system environment) (Except Raised Deployment) caller (fun _ _ => True) 0
      (compareAndSave deployment endpoint version).run (fun _ _ => True) state := by
  intro found after _
  refine ⟨trivial, ?_⟩
  cases found with
  | none => exact ⟨rfl, trivial⟩
  | some current =>
      have decides : @Held (service.system environment) (Except Raised Deployment) caller
          (fun _ _ => True) 0 (if current.resourceVersion ≠ version then pure current
            else do
              store (.savePair deployment endpoint none)
              pure deployment : Service Deployment).run (fun _ _ => True) after := by
        split
        · exact ⟨rfl, trivial⟩
        · exact fun _ _ _ => ⟨trivial, rfl, trivial⟩
      exact decides

/-- The history of a pool, and that its states are consistent. -/
structure Sequenced (pool : Pool (service.system environment))
    (history : List (Entry (service.system environment))) (settled : State) : Prop where
  told : @Linearizes (service.system environment) State.initial pool history settled
  consistent : Consistent settled
  starts : ∀ entry ∈ history, Consistent entry.start

section Pools

variable {pool next last : Pool (service.system environment)}
variable {history : List (Entry (service.system environment))} {settled : State}

theorem Reached.idle (reached : Reached environment service pool) : Linearizes.Idle pool := by
  intro index command op rest answer after here does
  have guarded : Guarded 0 op := ((Reached.calling reached) _ (List.mem_of_getElem? here)).1
  obtain ⟨_, _, rfl⟩ := does
  have untouched : op.effect (State.database pool.state) = State.database pool.state := by
    cases op with
    | store op =>
        cases writes : op.writes with
        | false => exact StoreOp.run_of_not_writes writes _
        | true => exact absurd (guarded writes) (Nat.lt_irrefl 0)
    | utcNow | uuid4 | port | activity => rfl
  simp only [State.after, untouched, Bool.false_and, Bool.false_eq_true, if_false]
  rfl

theorem Sequenced.step (sequenced : Sequenced pool history settled)
    (reached : Reached environment service pool) (step : Step pool next) :
    ∃ more settled', Sequenced next (history ++ more) settled' := by
  rcases sequenced.told.step step reached.idle with told | ⟨entry, began, told⟩
  · refine ⟨[], settled, ?_⟩
    rw [List.append_nil]
    exact ⟨told, sequenced.consistent, sequenced.starts⟩
  · refine ⟨[entry], pool.state, told, Reached.consistent reached, ?_⟩
    intro other member
    rcases List.mem_append.mp member with earlier | made
    · exact sequenced.starts other earlier
    · rw [List.mem_singleton.mp made, began]
      exact sequenced.consistent

theorem Sequenced.run (sequenced : Sequenced pool history settled)
    (reached : Reached environment service pool) (path : Relation.ReflTransGen Step pool last) :
    ∃ later settled', Sequenced last (history ++ later) settled' := by
  induction path with
  | refl => exact ⟨[], settled, (List.append_nil history).symm ▸ sequenced⟩
  | tail before step ih =>
      obtain ⟨later, settled', sequenced'⟩ := ih
      obtain ⟨more, settled'', sequenced''⟩ :=
        sequenced'.step (Relation.ReflTransGen.trans reached before) step
      exact ⟨later ++ more, settled'', (List.append_assoc ..) ▸ sequenced''⟩

theorem Reached.sequenced (reached : Reached environment service pool) :
    ∃ history settled, Sequenced pool history settled := by
  have start : Sequenced (Pool.initial State.initial : Pool (service.system environment)) []
      State.initial :=
    ⟨.initial _, initial_consistent, fun _ member => absurd member List.not_mem_nil⟩
  obtain ⟨history, settled, sequenced⟩ := start.run .refl reached
  exact ⟨_, settled, sequenced⟩

/-- What a tenure adds to the journal is its own. -/
theorem Tenure.events {caller : Caller (service.system environment).Command} {origin start depth
    program state} (tenure : Tenure caller origin start depth program state) :
    ∀ event ∈ State.journal state, event ∈ State.journal start ∨ event.caller = caller := by
  induction tenure with
  | taken => exact fun event member => .inl member
  | retaken _ ih | kept _ ih => exact ih
  | called before does ih =>
      obtain ⟨_, _, rfl⟩ := does
      intro event member
      unfold State.after at member
      split at member
      · rcases List.mem_append.mp member with earlier | made
        · exact ih event earlier
        · rw [List.mem_singleton.mp made]
          exact .inr rfl
      · exact ih event member

/-- Who left something in the journal has an entry. -/
theorem Chained.callers
    (chained : @Chained (service.system environment) State.initial history settled) :
    ∀ event ∈ settled.journal, ∃ entry ∈ history, entry.caller = event.caller := by
  induction chained with
  | nil => exact fun event member => absurd member List.not_mem_nil
  | @concat history entry before ran ih =>
      intro event member
      rcases Tenure.events ran event member with earlier | mine
      · obtain ⟨found, there, same⟩ := ih event earlier
        exact ⟨found, List.mem_append_left _ there, same⟩
      · exact ⟨entry, List.mem_append_right _ (List.mem_singleton_self _), mine.symm⟩

/-- A thread leaves its first section only with its result. -/
theorem Sequenced.ends (sequenced : Sequenced pool history settled) {index : Nat}
    {command : Command} {entry : Entry (service.system environment)}
    (head : (ownEntries index history).head? = some entry) (mine : entry.caller = ⟨index, command⟩)
    (ran : entry.Ran) (chosen : SectionOf service command entry.before) :
    ∃ result, entry.after = .pure result := by
  obtain ⟨earlier, chained, none⟩ := sequenced.told.chained.first head
  have member : entry ∈ history := List.mem_of_mem_filter (List.mem_of_mem_head? head)
  have consistent := sequenced.starts entry member
  have unseen : Unseen entry.caller.index entry.start := by
    intro event told same
    obtain ⟨found, there, caller⟩ := Chained.callers chained event told
    have kept : found ∈ ownEntries index earlier := by
      apply List.mem_filter.mpr
      rw [caller, same, mine]
      exact ⟨there, decide_eq_true rfl⟩
    rw [none] at kept
    cases kept
  have locked : (∀ id, command ≠ .get id) → ∃ result, entry.after = .pure result := by
    intro locks
    have locks' : ∀ id, entry.caller.command ≠ .get id := by
      rw [mine]
      exact locks
    have section' : entry.before = (service.body command).attempt := by
      cases command with
      | get id => exact absurd rfl (locks id)
      | create | stop | restart => exact chosen
    rw [service.body_eq_locked locks] at section'
    have held : InSection environment service entry.caller
        (service.underLock entry.caller.command)
        (Served environment service entry.caller entry.start) entry.start :=
      .command consistent unseen locks'
    have asked : entry.caller.command = command := congrArg Caller.command mine
    rw [asked] at held
    obtain ⟨result, after, _⟩ := Entry.Ran.locked ran section' held
    exact ⟨result, after⟩
  cases command with
  | create | stop | restart => exact locked (by simp)
  | get id =>
      obtain ⟨deployment, endpoint, observation, now, same⟩ := chosen
      obtain ⟨result, after, _⟩ := Entry.Ran.locked ran same (held_compareAndSave _ _ _ _)
      exact ⟨result, after⟩

/-- The history has everything the commands of a pool have done, in the order they did it. -/
structure Linearized (pool : Pool (service.system environment))
    (history : List (Entry (service.system environment))) : Prop where
  serial : ∃ settled : State, Chained State.initial history settled ∧
    (pool.Quiescent → pool.state = settled)
  commands : ∀ {index depth : Nat} {command : Command} {result : Except Raised Deployment},
    pool.threads[index]? = some ⟨command, depth, .pure result⟩ → (∀ id, command ≠ .get id) →
    ∃ start finish, ownEntries index history =
      [⟨⟨index, command⟩, (service.body command).attempt, .pure result, start, finish⟩]
  reads : ∀ {index depth : Nat} {id : Uuid} {result : Except Raised Deployment},
    pool.threads[index]? = some ⟨.get id, depth, .pure result⟩ →
    ownEntries index history = [] ∨
      ∃ deployment endpoint observation now start finish, ownEntries index history =
        [⟨⟨index, .get id⟩, commitOf deployment endpoint observation now, .pure result, start,
          finish⟩]
  started : ∀ entry ∈ history, entry.caller.index < pool.threads.length

theorem Sequenced.single (sequenced : Sequenced pool history settled)
    (reached : Reached environment service pool) {index depth : Nat} {command : Command}
    {result : Except Raised Deployment}
    (here : pool.threads[index]? = some ⟨command, depth, .pure result⟩) :
    Explained ⟨index, command⟩ (service.body command).attempt (ownEntries index history)
        (.pure result) ∧
      (ownEntries index history = [] ∨ ∃ origin start finish, SectionOf service command origin ∧
        ownEntries index history =
          [⟨⟨index, command⟩, origin, .pure result, start, finish⟩]) := by
  obtain ⟨_, _, verified⟩ := (Reached.sound_trivially reached).verified here
  have released : depth = 0 := verified.1
  have explained : Explained ⟨index, command⟩ (service.body command).attempt (ownEntries index history)
      (.pure result) := sequenced.told.outside here released
  refine ⟨explained, ?_⟩
  rcases explained.single (enters_body service command)
      (fun entry head mine ran chosen => sequenced.ends head mine ran chosen) with
    ⟨none, _⟩ | ⟨⟨caller, origin, after, start, finish⟩, value, only, mine, _, chosen, ended, same⟩
  · exact .inl none
  · cases same
    cases mine
    cases ended
    exact .inr ⟨origin, start, finish, chosen, only⟩

/-- A command that still waits for its lock has done nothing. -/
theorem Reached.unseen_of_waiting (reached : Reached environment service pool) {index : Nat}
    {command : Command} (here : pool.threads[index]? = some (Thread.start command))
    (locks : ∀ id, command ≠ .get id) : Unseen index pool.state := by
  obtain ⟨history, settled, sequenced⟩ := reached.sequenced
  have explained : Explained ⟨index, command⟩ (service.body command).attempt
      (ownEntries index history) (service.body command).attempt := sequenced.told.outside here rfl
  have none : ownEntries index history = [] := by
    rcases explained.single (enters_body service command)
        (fun entry head mine ran chosen => sequenced.ends head mine ran chosen) with
      ⟨none, _⟩ | ⟨_, _, _, _, _, _, _, done⟩
    · exact none
    · rw [service.body_eq_locked locks] at done
      cases done
  have idle : ∀ event ∈ State.journal settled, event.caller.index ≠ index := by
    intro event member same
    obtain ⟨entry, there, caller⟩ := Chained.callers sequenced.told.chained event member
    have own : entry ∈ ownEntries index history :=
      List.mem_filter.mpr ⟨there, by rw [caller, same]; exact decide_eq_true rfl⟩
    rw [none] at own
    cases own
  by_cases quiescent : pool.Quiescent
  · rw [sequenced.told.free quiescent]
    exact idle
  · simp only [Pool.Quiescent, not_forall] at quiescent
    obtain ⟨holder, member, holds⟩ := quiescent
    obtain ⟨place, there⟩ := List.getElem?_of_mem member
    obtain ⟨origin, _, tenure⟩ := sequenced.told.inside there (Nat.pos_of_ne_zero holds)
    intro event member
    rcases Tenure.events tenure event member with earlier | mine
    · exact idle event earlier
    · intro same
      have place : place = index := (congrArg Caller.index mine).symm.trans same
      rw [place, here, Option.some.injEq] at there
      subst there
      exact holds rfl

theorem Reached.unseen_of_unbegun (reached : Reached environment service pool) {index : Nat}
    {command : Command}
    (unbegun : ∀ thread, pool.threads[index]? = some thread → thread = Thread.start command)
    (locks : ∀ id, command ≠ .get id) : Unseen index pool.state := by
  cases here : pool.threads[index]? with
  | none => exact reached.unseen_of_later (List.getElem?_eq_none_iff.mp here)
  | some thread => exact reached.unseen_of_waiting (here.trans (congrArg some (unbegun _ here))) locks

theorem Sequenced.linearized (sequenced : Sequenced pool history settled)
    (reached : Reached environment service pool) : Linearized pool history where
  serial := ⟨settled, sequenced.told.chained, sequenced.told.free⟩
  commands := by
    intro index depth command result here locks
    obtain ⟨explained, none | ⟨origin, start, finish, chosen, only⟩⟩ := sequenced.single reached here
    · rw [service.body_eq_locked locks] at explained
      cases explained.waits none
    · cases command with
      | get id => exact absurd rfl (locks id)
      | create | stop | restart =>
          cases chosen
          exact ⟨start, finish, only⟩
  reads := by
    intro index depth id result here
    obtain ⟨_, none | ⟨origin, start, finish, chosen, only⟩⟩ := sequenced.single reached here
    · exact .inl none
    · obtain ⟨deployment, endpoint, observation, now, rfl⟩ := chosen
      exact .inr ⟨deployment, endpoint, observation, now, start, finish, only⟩
  started := sequenced.told.started

end Pools

/-- Every run of commands is a sequence of commands run alone, and goes on with it. -/
theorem commands_are_linearizable (environment : Environment) (service : ReactorService)
    {pool last : Pool (service.system environment)} (reached : Reached environment service pool)
    (path : Relation.ReflTransGen Step pool last) :
    ∃ history later, Linearized pool history ∧ Linearized last (history ++ later) := by
  obtain ⟨history, settled, sequenced⟩ := reached.sequenced
  obtain ⟨later, settled', sequenced'⟩ := sequenced.run reached path
  have reached' : Reached environment service last := Relation.ReflTransGen.trans reached path
  exact ⟨history, later, sequenced.linearized reached, sequenced'.linearized reached'⟩

/-- Three commands that met at the lock, before and after they are over. -/
theorem commands_are_linearizable_sampled :
    ∃ history later : List (Entry (Sample.service.system .unrestricted)),
      Linearized (Sample.contended Sample.meets) history ∧
        Linearized (Sample.contended Sample.settles) (history ++ later) :=
  commands_are_linearizable .unrestricted Sample.service (Sample.contended_reaches _)
    Sample.contended_settles

end CyreneReactor
