import CyreneReactor.Lifecycle.Inside

namespace CyreneReactor

open Interaction ReactorService

/-! What holds along a run in which every change of the state is lawful.

A run is seen here as the path of its states alone.  Invariants are proved for
one lawful operation and carried along the path by one rule.
-/

section Path

variable (environment : Environment) (service : ReactorService)

/-- One step of any thread, as it shows in the state. -/
def Moves (state next : State) : Prop :=
  ∃ caller held, Guarantee environment service caller held state next

/-- Any number of steps of any threads. -/
abbrev Evolves : State → State → Prop := Relation.ReflTransGen (Moves environment service)

variable {environment service} {state next : State}

theorem Moves.consistent (moves : Moves environment service state next)
    (consistent : Consistent state) : Consistent next := by
  obtain ⟨caller, held, guaranteed⟩ := moves
  cases guaranteed with
  | held performs lawful =>
      obtain ⟨_, _, rfl⟩ := performs
      exact lawful.consistent consistent
  | unheld => exact consistent

theorem Moves.slot (moves : Moves environment service state next)
    (consistent : Consistent state) (id : Uuid) :
    next.database.slot id = state.database.slot id ∨
      ∃ event, SlotStep service event state.journal id (state.database.slot id)
        (next.database.slot id) := by
  obtain ⟨caller, held, guaranteed⟩ := moves
  cases guaranteed with
  | held performs lawful =>
      obtain ⟨_, answers, rfl⟩ := performs
      exact .inr ⟨_, lawful.slotStep consistent answers id⟩
  | unheld => exact .inl rfl

/-- The event by which a step grew the journal was lawful. -/
theorem Moves.event (moves : Moves environment service state next) {caller : Caller Command}
    {op : Op} {answer : op.Answer}
    (appended : next.journal = state.journal ++ [⟨caller, op, answer⟩]) :
    op.Lawful service caller state ∧ Answers state op answer ∧
      next = state.after caller true op answer := by
  obtain ⟨performer, held, guaranteed⟩ := moves
  cases guaranteed with
  | unheld => simp at appended
  | @held performed _ _ _ performs lawful =>
      obtain ⟨_, answers, rfl⟩ := performs
      cases recorded : performed.recorded with
      | false =>
          rw [State.after_unrecorded recorded] at appended
          simp at appended
      | true =>
          rw [State.after_recorded recorded, List.append_cancel_left_eq] at appended
          cases appended
          exact ⟨lawful, answers, rfl⟩

/-- The rule of invariants: what every lawful operation that leaves a trace
preserves holds along every run. -/
theorem Evolves.invariant (holds : State → Prop)
    (preserved : ∀ {caller : Caller Command} {op : Op} {state : State} {answer : op.Answer},
      op.recorded = true → Consistent state → holds state →
      environment state.database op answer → Answers state op answer →
      op.Lawful service caller state → holds (state.after caller true op answer))
    (evolves : Evolves environment service state next) (consistent : Consistent state)
    (initially : holds state) : Consistent next ∧ holds next := by
  induction evolves with
  | refl => exact ⟨consistent, initially⟩
  | tail _ moves ih =>
      obtain ⟨between, held⟩ := ih
      refine ⟨moves.consistent between, ?_⟩
      obtain ⟨caller, locked, guaranteed⟩ := moves
      cases guaranteed with
      | held performs lawful =>
          obtain ⟨admitted, answers, rfl⟩ := performs
          cases recorded : Op.recorded _ with
          | true => exact preserved recorded between held admitted answers lawful
          | false =>
              rw [State.after_unrecorded recorded]
              exact held
      | unheld => exact held

theorem Evolves.consistent (evolves : Evolves environment service state next)
    (consistent : Consistent state) : Consistent next :=
  (evolves.invariant (fun _ => True) (fun _ _ _ _ _ _ => trivial) consistent trivial).1

/-- A stored deployment stays stored and moves through its lifecycle. -/
theorem Evolves.slot (evolves : Evolves environment service state next)
    (consistent : Consistent state) {id : Uuid} {old : Slot}
    (here : state.database.slot id = some old) :
    ∃ new, next.database.slot id = some new ∧ Relation.ReflTransGen Transition old new := by
  induction evolves with
  | refl => exact ⟨old, here, .refl⟩
  | @tail middle last path moves ih =>
      obtain ⟨between, there, before⟩ := ih
      have lawful : Consistent middle := Evolves.consistent path consistent
      rcases moves.slot lawful id with unmoved | ⟨event, step⟩
      · exact ⟨between, unmoved.trans there, before⟩
      · rw [there] at step
        generalize last.database.slot id = after at step
        cases step with
        | same => exact ⟨between, rfl, before⟩
        | written write => exact ⟨_, rfl, before.tail write.transition⟩

/-- What is true of new slots and kept by the lifecycle is true of every slot. -/
theorem Evolves.everySlot {good : Slot → Prop}
    (created : ∀ request id now, good ⟨newDeployment request id now, none, none⟩)
    (preserved : ∀ old new, Transition old new → good old → good new)
    (evolves : Evolves environment service State.initial state) {id : Uuid} {slot : Slot}
    (here : state.database.slot id = some slot) : good slot := by
  have every : Consistent state ∧ ∀ id slot, state.database.slot id = some slot → good slot := by
    refine evolves.invariant
      (fun state => ∀ id slot, state.database.slot id = some slot → good slot) ?_
      initial_consistent (fun _ _ here => by cases here)
    intro caller op state answer _ consistent before _ answers lawful id slot here
    have step : SlotStep service ⟨caller, op, answer⟩ state.journal id (state.database.slot id)
        ((state.after caller true op answer).database.slot id) :=
      lawful.slotStep consistent answers id
    rw [here] at step
    generalize found : state.database.slot id = old at step
    cases step with
    | same => exact before id slot found
    | created => exact created _ _ _
    | written write => exact preserved _ _ write.transition (before id _ found)
  exact every.2 id slot here

/-- The engine calls since the last write were answered for what is stored now. -/
def Witnessed (environment : Environment) (state : State) : Prop :=
  ∀ id slot, state.database.slot id = some slot →
    ∀ exchange ∈ sinceWrite id state.journal, exchange.call.deploymentId = id →
      environment.Admits slot exchange

/-- Only an event that writes a deployment changes what is stored about it. -/
theorem Op.Lawful.unwritten {caller : Caller Command} {op : Op} {answer : op.Answer} {id : Uuid}
    (lawful : op.Lawful service caller state) (consistent : Consistent state)
    (answers : Answers state op answer)
    (unwritten : (Event.mk caller op answer).writesSlot id = false) :
    (state.after caller true op answer).database.slot id = state.database.slot id := by
  have step : SlotStep service ⟨caller, op, answer⟩ state.journal id (state.database.slot id)
      ((state.after caller true op answer).database.slot id) :=
    lawful.slotStep consistent answers id
  generalize state.database.slot id = old at step
  generalize (state.after caller true op answer).database.slot id = new at step
  cases step with
  | same => rfl
  | created _ _ creates =>
      have writes : (Event.mk caller op answer).writesSlot id = true :=
        Event.writesSlot_of_created creates
      rw [unwritten] at writes
      cases writes
  | written _ writes =>
      rw [unwritten] at writes
      cases writes

theorem Witnessed.step {caller : Caller Command} {op : Op} {answer : op.Answer}
    (before : Witnessed environment state) (consistent : Consistent state)
    (admitted : environment state.database op answer) (answers : Answers state op answer)
    (lawful : op.Lawful service caller state) :
    Witnessed environment (state.after caller true op answer) := by
  intro id slot here exchange member about
  rw [sinceWrite_after] at member
  cases written : (Event.mk caller op answer).writesSlot id with
  | true =>
      rw [written] at member
      exact absurd member List.not_mem_nil
  | false =>
      rw [lawful.unwritten consistent answers written] at here
      simp only [written, Bool.false_eq_true, if_false] at member
      rcases List.mem_append.mp member with earlier | last
      · exact before id slot here exchange earlier about
      · cases op with
        | port engine call =>
            rw [List.mem_singleton.mp last] at about ⊢
            exact ⟨state.database, about ▸ here, admitted⟩
        | utcNow | uuid4 | store | activity => exact absurd last List.not_mem_nil

theorem Evolves.witnessed (evolves : Evolves environment service State.initial state) :
    Witnessed environment state :=
  (evolves.invariant (Witnessed environment)
    (fun _ consistent before admitted answers lawful =>
      before.step consistent admitted answers lawful)
    initial_consistent (fun _ _ here => by cases here)).2

end Path

section Transitions

variable {old new : Slot}

theorem Transition.versions (transitions : Relation.ReflTransGen Transition old new) :
    old.deployment.resourceVersion ≤ new.deployment.resourceVersion := by
  induction transitions with
  | refl => exact Nat.le_refl _
  | tail _ transition ih => exact ih.trans transition.version_le

/-- Only the early save of a launch goes unnoticed by a comparison of versions. -/
theorem Transition.unnoticed (transitions : Relation.ReflTransGen Transition old new)
    (same : new.deployment.resourceVersion = old.deployment.resourceVersion) :
    new = old ∨ (old.deployment.observedState = .starting ∧
      new.deployment.observedState = .starting) := by
  induction transitions with
  | refl => exact .inl rfl
  | @tail middle last before transition ih =>
      have lower := Transition.versions before
      have upper := transition.version_le
      rcases transition.version with bumped | ⟨_, starting, still, _⟩
      · omega
      · rcases ih (by omega) with rfl | ⟨began, _⟩
        · exact .inr ⟨starting, still⟩
        · exact .inr ⟨began, still⟩

/-- A deployment that serves is unchanged as long as its version is. -/
theorem Transition.unchanged (transitions : Relation.ReflTransGen Transition old new)
    (live : old.deployment.observedState = .ready ∨ old.deployment.observedState = .degraded)
    (same : new.deployment.resourceVersion = old.deployment.resourceVersion) : new = old := by
  rcases Transition.unnoticed transitions same with unchanged | ⟨starting, _⟩
  · exact unchanged
  · rcases live with live | live <;> rw [starting] at live <;> cases live

end Transitions

end CyreneReactor
