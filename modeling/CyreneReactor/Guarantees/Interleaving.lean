import CyreneReactor.Lifecycle.Discipline
import CyreneReactor.Service.Script

namespace CyreneReactor

open Interaction ReactorService

/-! No update is lost between reads and commands.

The journal lists everything that was persisted, in order.  So a state of a
serial execution is also a history of a serial execution.
-/

variable {environment : Environment} {service : ReactorService}

/-- What the events of a journal leave, applied to an empty database. -/
def replay (journal : List Event) : Database :=
  journal.foldl (fun database event => event.op.effect database) .empty

theorem Evolves.replay {state : State}
    (evolves : Evolves environment service State.initial state) :
    state.database = CyreneReactor.replay state.journal := by
  refine (evolves.invariant (fun state => state.database = CyreneReactor.replay state.journal) ?_
    initial_consistent rfl).2
  intro caller op state answer recorded _ before _ _ _
  rw [State.after_recorded recorded, CyreneReactor.replay, List.foldl_append]
  exact congrArg op.effect before

/-- What restarts that wrote have in common: the version they asked for is gone. -/
structure RestartsOnce (state : State) : Prop where
  outdated : ∀ (caller : Caller Command) id nodeRef version,
    caller.command = .restart id nodeRef version → Wrote caller id state.journal →
    ∃ slot, state.database.slot id = some slot ∧ version < slot.deployment.resourceVersion
  alone : ∀ (first second : Caller Command) id nodeRef other version,
    first.command = .restart id nodeRef version → second.command = .restart id other version →
    Wrote first id state.journal → Wrote second id state.journal → first = second
  launched : ∀ event ∈ state.journal, ∀ id nodeRef version target,
    event.caller.command = .restart id nodeRef version →
    event.exchange?.any (Exchange.launches target) = true →
      target = id ∧ Wrote event.caller id state.journal

theorem wrote_append {caller : Caller Command} {id : Uuid} {journal : List Event} {event : Event} :
    Wrote caller id (journal ++ [event]) ↔
      Wrote caller id journal ∨ (event.caller = caller ∧ event.writesSlot id = true) := by
  constructor
  · rintro ⟨found, member, byCaller, writes⟩
    rcases List.mem_append.mp member with earlier | last
    · exact .inl ⟨found, earlier, byCaller, writes⟩
    · obtain rfl := List.mem_singleton.mp last
      exact .inr ⟨byCaller, writes⟩
  · rintro (⟨found, member, byCaller, writes⟩ | ⟨byCaller, writes⟩)
    · exact ⟨found, List.mem_append_left _ member, byCaller, writes⟩
    · exact ⟨event, List.mem_append_right _ (List.mem_singleton_self _), byCaller, writes⟩

theorem RestartsOnce.step {state : State} {caller : Caller Command} {op : Op} {answer : op.Answer}
    (before : RestartsOnce state) (recorded : op.recorded = true)
    (consistent : Consistent state) (answers : Answers state op answer)
    (lawful : op.Lawful service caller state) :
    RestartsOnce (state.after caller true op answer) := by
  let event : Event := ⟨caller, op, answer⟩
  have journal : (state.after caller true op answer).journal = state.journal ++ [event] :=
    State.after_recorded recorded
  have steps : ∀ id, SlotStep service event state.journal id (state.database.slot id)
      ((state.after caller true op answer).database.slot id) :=
    fun id => lawful.slotStep consistent answers id
  -- The first write of a restart finds the version it asked for and moves it on.
  have writes : ∀ id nodeRef version, caller.command = .restart id nodeRef version →
      event.writesSlot id = true → Wrote caller id state.journal ∨ ∃ old new,
        state.database.slot id = some old ∧
        (state.after caller true op answer).database.slot id = some new ∧
        old.deployment.resourceVersion = version ∧ version < new.deployment.resourceVersion := by
    intro id nodeRef version command written
    have step := steps id
    generalize found : state.database.slot id = old at step
    generalize there : (state.after caller true op answer).database.slot id = new at step
    cases step with
    | same unwritten =>
        have unwritten : event.writesSlot id = false := unwritten
        rw [written] at unwritten
        cases unwritten
    | created command' =>
        rw [command] at command'
        cases command'
    | @written old new write _ _ _ =>
        have allowed := write.allowed
        unfold MayWrite at allowed
        simp only [event, command] at allowed
        exact allowed.2.imp_right fun current => ⟨old, new, rfl, rfl, current⟩
  have outdated : ∀ (performer : Caller Command) id nodeRef version,
      performer.command = .restart id nodeRef version → Wrote performer id state.journal →
      ∃ slot, (state.after caller true op answer).database.slot id = some slot ∧
        version < slot.deployment.resourceVersion := by
    intro performer id nodeRef version command wrote
    obtain ⟨slot, here, moved⟩ := before.outdated performer id nodeRef version command wrote
    have step := steps id
    rw [here] at step
    generalize (state.after caller true op answer).database.slot id = new at step
    cases step with
    | same => exact ⟨slot, rfl, moved⟩
    | written write => exact ⟨_, rfl, moved.trans_le write.transition.version_le⟩
  -- A caller that wrote just now did so before, or found the version unclaimed.
  have unclaimed : ∀ (first second : Caller Command) id nodeRef other version,
      first.command = .restart id nodeRef version → second.command = .restart id other version →
      Wrote first id state.journal → event.caller = second → event.writesSlot id = true →
      first = second := by
    intro first second id nodeRef other version command command' wrote byCaller written
    subst byCaller
    rcases writes id other version command' written with again | ⟨old, _, here, _, current, _⟩
    · exact before.alone first caller id nodeRef other version command command' wrote again
    · obtain ⟨slot, found, moved⟩ := before.outdated first id nodeRef version command wrote
      rw [here, Option.some.injEq] at found
      subst found
      omega
  constructor
  · intro performer id nodeRef version command wrote
    rw [journal, wrote_append] at wrote
    rcases wrote with earlier | ⟨rfl, written⟩
    · exact outdated performer id nodeRef version command earlier
    · rcases writes id nodeRef version command written with again | ⟨_, new, _, there, _, moved⟩
      · exact outdated _ id nodeRef version command again
      · exact ⟨new, there, moved⟩
  · intro first second id nodeRef other version command command' wrote wrote'
    rw [journal, wrote_append] at wrote wrote'
    rcases wrote with earlier | ⟨byFirst, written⟩
    · rcases wrote' with earlier' | ⟨bySecond, written⟩
      · exact before.alone first second id nodeRef other version command command' earlier earlier'
      · exact unclaimed first second id nodeRef other version command command' earlier bySecond
          written
    · rcases wrote' with earlier' | ⟨bySecond, _⟩
      · exact (unclaimed second first id other nodeRef version command' command earlier' byFirst
          written).symm
      · exact byFirst.symm.trans bySecond
  · intro found member id nodeRef version target command launches
    rw [journal] at member ⊢
    rcases List.mem_append.mp member with earlier | last
    · obtain ⟨same, wrote⟩ := before.launched found earlier id nodeRef version target command launches
      exact ⟨same, wrote_append.mpr (.inl wrote)⟩
    obtain rfl := List.mem_singleton.mp last
    have asked : ∀ asked, (asked == target) = true → MayLaunch caller asked state.journal →
        target = id ∧ Wrote caller id (state.journal ++ [event]) := by
      intro asked about may
      obtain rfl := beq_iff_eq.mp about
      unfold MayLaunch at may
      have command : caller.command = .restart id nodeRef version := command
      simp only [command] at may
      obtain ⟨rfl, wrote⟩ := may
      exact ⟨rfl, wrote_append.mpr (.inl wrote)⟩
    cases op with
    | port engine call =>
        cases call with
        | prepare asked' => exact asked asked' launches lawful.2
        | start asked' => exact asked asked' launches lawful.2.1
        | verifyServedModel | inspect | stop => cases launches
    | utcNow | uuid4 | store | activity => cases launches

theorem Evolves.restartsOnce {state : State}
    (evolves : Evolves environment service State.initial state) : RestartsOnce state :=
  (evolves.invariant RestartsOnce
    (fun recorded consistent before _ answers lawful =>
      before.step recorded consistent answers lawful)
    initial_consistent
    ⟨fun _ _ _ _ _ wrote => absurd wrote.choose_spec.1 List.not_mem_nil,
      fun _ _ _ _ _ _ _ _ wrote => absurd wrote.choose_spec.1 List.not_mem_nil,
      fun _ member => absurd member List.not_mem_nil⟩).2

/-- What every pool owes to a serial execution. -/
structure NoLostUpdate (environment : Environment) (service : ReactorService)
    (pool : Pool (service.system environment)) : Prop where
  /-- The journal lists what was persisted. -/
  history : State.database pool.state = replay (State.journal pool.state)
  /-- The state, and its history with it, is one a serial execution passes through. -/
  passes : Serial environment service pool.state ∨ Underway environment service pool.state
  /-- With the lock free it is one a serial execution ends in. -/
  serial : pool.Quiescent → Serial environment service pool.state
  /-- A read writes the reconcile of both rows as they are stored at that moment. -/
  reconciled : ∀ {next : Pool (service.system environment)} {event : Event} {id target : Uuid},
    Step pool next → State.journal next.state = State.journal pool.state ++ [event] →
    event.caller.command = .get id → event.writesSlot target = true →
    target = id ∧ ∃ old new, (State.database pool.state).slot id = some old ∧
      (State.database next.state).slot id = some new ∧ Reconciles old new
  /-- Of the restarts that ask for one version, one at most writes, and only it launches. -/
  restarts : ∀ {first second : Caller Command} {id : Uuid} {nodeRef other : NodeRef}
    {version : Nat}, first.command = .restart id nodeRef version →
    second.command = .restart id other version → Wrote first id (State.journal pool.state) →
    Wrote second id (State.journal pool.state) → first = second
  launches : ∀ {event : Event} {id target : Uuid} {nodeRef : NodeRef} {version : Nat},
    event ∈ State.journal pool.state → event.caller.command = .restart id nodeRef version →
    event.exchange?.any (Exchange.launches target) = true →
    target = id ∧ Wrote event.caller id (State.journal pool.state)

/-- A write by a read is the reconcile of what is stored. -/
theorem Moves.reconciled {state next : State} (moves : Moves environment service state next)
    (consistent : Consistent state) {event : Event} {id target : Uuid}
    (appended : next.journal = state.journal ++ [event]) (command : event.caller.command = .get id)
    (writes : event.writesSlot target = true) :
    target = id ∧ ∃ old new, state.database.slot id = some old ∧
      next.database.slot id = some new ∧ Reconciles old new := by
  obtain ⟨caller, op, answer⟩ := event
  obtain ⟨lawful, answers, rfl⟩ := moves.event appended
  have step : SlotStep service ⟨caller, op, answer⟩ state.journal target
      (state.database.slot target) ((state.after caller true op answer).database.slot target) :=
    lawful.slotStep consistent answers target
  generalize found : state.database.slot target = old at step
  generalize there : (state.after caller true op answer).database.slot target = new at step
  cases step with
  | same unwritten =>
      rw [writes] at unwritten
      cases unwritten
  | created command' =>
      rw [command] at command'
      cases command'
  | @written old new write =>
      have command : caller.command = .get id := command
      have allowed := write.allowed
      unfold MayWrite at allowed
      simp only [command] at allowed
      obtain ⟨named, reconciles⟩ := allowed
      have key : old.deployment.id = target := (Database.slot_eq_some found).2.1
      obtain rfl : target = id := (named.trans key).symm
      exact ⟨rfl, old, new, found, there, reconciles⟩

/-- No update is lost between reads and commands. -/
theorem reconcile_loses_no_update (environment : Environment) (service : ReactorService)
    {pool : Pool (service.system environment)} (reached : Reached environment service pool) :
    NoLostUpdate environment service pool := by
  have start : Reached environment service (Pool.initial State.initial) := .refl
  have evolves := (start.evolves reached).1
  have restarts := evolves.restartsOnce
  exact
    { history := evolves.replay
      passes := reached.underway
      serial := reached.serial
      reconciled := fun step appended command writes =>
        Moves.reconciled (reached.step step).1 reached.consistent appended command writes
      restarts := fun command command' wrote wrote' =>
        restarts.alone _ _ _ _ _ _ command command' wrote wrote'
      launches := fun member command launches =>
        restarts.launched _ member _ _ _ _ command launches }

/-- Of the read and the two restarts that meet, only the first restart writes. -/
theorem reconcile_loses_no_update_restarted :
    NoLostUpdate .unrestricted Sample.service (Sample.contended Sample.settles) ∧
      ((State.journal (Sample.contended Sample.settles).state).filter
          (Event.writesSlot Sample.firstId)).map (·.caller.index) = [0, 0, 2, 2, 2, 2, 4] :=
  ⟨reconcile_loses_no_update .unrestricted Sample.service (Sample.contended_reaches _), rfl⟩

end CyreneReactor
