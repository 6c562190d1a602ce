import CyreneReactor.PackageRuntime.Script
import CyreneReactor.PackageRuntime.Verified

namespace CyreneReactor.PackageRuntime

open Interaction

/-! The operation ledger over whole runs.

Every step of every interleaving is one the discipline permits, so what one
permitted step keeps, a run keeps.
-/

section Runs

variable {owner : Owner} {environment : Environment} {ledger : Ledger}
  {pool later : Pool (owner.system environment)}

/-- What is known of a pool between two steps. -/
structure Lawful (owner : Owner) (environment : Environment)
    (pool : Pool (owner.system environment)) : Prop where
  sound : (discipline owner environment).Sound (Finish owner environment) pool
  coherent : Coherent pool.state

/-- A step is a permitted call, or it leaves the state alone. -/
theorem Lawful.permitted (lawful : Lawful owner environment pool) (step : Step pool later) :
    later.state = pool.state ∨ ∃ caller held op answer,
      Performs environment caller op pool.state answer later.state ∧
        Permits owner environment caller held pool.state op := by
  have bodies := fun command => body_verified pool.threads.length command pool.state
    (lawful.sound.fresh (Nat.le_refl _))
  rcases (lawful.sound.step bodies step).2 with same | ⟨caller, held, op, answer, permitted⟩
  · exact .inl same
  · exact .inr ⟨caller, held, op, answer, permitted⟩

theorem Lawful.step (lawful : Lawful owner environment pool) (step : Step pool later) :
    Lawful owner environment later where
  sound := (lawful.sound.step (fun command => body_verified pool.threads.length command pool.state
    (lawful.sound.fresh (Nat.le_refl _))) step).1
  coherent := by
    rcases lawful.permitted step with same | ⟨_, _, _, _, performs, permits⟩
    · exact same ▸ lawful.coherent
    · exact performs.coherent permits lawful.coherent

theorem Lawful.initial (receipted : ledger.WellReceipted) :
    Lawful owner environment (Pool.initial (State.opened ledger)) := by
  have coherent : Coherent (State.opened ledger) := by
    refine ⟨receipted, ?_, ?_⟩
    · rintro _ _ ⟨_, member, _⟩
      cases member
    · rintro _ _ _ ⟨_, member, _⟩
      cases member
  have fresh : ∀ index, (discipline owner environment).fresh index (State.opened ledger) := by
    intro index event member
    cases member
  exact ⟨(discipline owner environment).initial_sound coherent fresh, coherent⟩

theorem Lawful.of_reachable (receipted : ledger.WellReceipted)
    (reached : Reachable (State.opened ledger) pool) : Lawful owner environment pool := by
  induction reached with
  | refl => exact .initial receipted
  | tail _ step ih => exact ih.step step

theorem Lawful.run (lawful : Lawful owner environment pool)
    (run : Relation.ReflTransGen Step pool later) :
    Lawful owner environment later ∧ (State.ledger pool.state).Grows (State.ledger later.state) := by
  induction run with
  | refl => exact ⟨lawful, .refl _⟩
  | tail _ step ih =>
      refine ⟨ih.1.step step, ?_⟩
      rcases ih.1.permitted step with same | ⟨_, _, _, _, performs, _⟩
      · rw [same]
        exact ih.2
      · exact ih.2.trans performs.grows

end Runs

/-- The request an event belongs to. -/
def Event.requestId? (event : Event) : Option String :=
  match event.caller.command with
  | .activate requestId _ | .reconcile requestId => some requestId
  | .status => none

/-- The requests mutations were dispatched for, in order. -/
def dispatched (journal : List Event) : List String :=
  (journal.filter Event.dispatches).filterMap Event.requestId?

/-- Each request is dispatched at most once, by the call that stored its intent. -/
structure DispatchedOnce (journal : List Event) : Prop where
  intended : ∀ event ∈ journal, event.dispatches = true → ∃ requestId installationId,
    event.caller.command = .activate requestId installationId ∧
      Intended event.caller requestId journal
  nodup : (dispatched journal).Nodup

theorem Event.op_of_dispatches {event : Event} (dispatches : event.dispatches = true) :
    event.op = .client .dispatches := by
  unfold Event.dispatches at dispatches
  split at dispatches
  · rfl
  · cases dispatches

section Dispatches

variable {owner : Owner} {environment : Environment} {caller : Caller Command} {held : Bool}
  {op : Op} {state next : State} {answer : op.Answer}

/-- A dispatch is the first of its request. -/
theorem DispatchedOnce.fresh (once : DispatchedOnce state.journal) (coherent : Coherent state)
    {requestId installationId : String} (command : caller.command = .activate requestId installationId)
    (intended : Intended caller requestId state.journal)
    (undispatched : ∀ event ∈ state.journal, event.caller = caller → event.dispatches = false) :
    requestId ∉ dispatched state.journal := by
  intro member
  obtain ⟨event, chosen, same⟩ := List.mem_filterMap.mp member
  obtain ⟨earlier, dispatches⟩ := List.mem_filter.mp chosen
  obtain ⟨other, installation, otherCommand, otherIntended⟩ := once.intended event earlier dispatches
  simp only [Event.requestId?, otherCommand, Option.some.injEq] at same
  subst same
  rw [undispatched event earlier (coherent.unique otherIntended intended)] at dispatches
  cases dispatches

theorem DispatchedOnce.step (once : DispatchedOnce state.journal) (coherent : Coherent state)
    (careful : environment.Careful) (performs : Performs environment caller op state answer next)
    (permits : Permits owner environment caller held state op) : DispatchedOnce next.journal := by
  have appended : dispatched next.journal = dispatched state.journal ++
      dispatched [⟨caller, op, answer⟩] := by
    simp only [dispatched, performs.journal, List.filter_append, List.filterMap_append]
  cases dispatches : Event.dispatches ⟨caller, op, answer⟩ with
  | false =>
      have none : dispatched [⟨caller, op, answer⟩] = [] := by simp [dispatched, dispatches]
      refine ⟨fun event member isDispatch => ?_,
        by rw [appended, none, List.append_nil]; exact once.nodup⟩
      rw [performs.journal] at member ⊢
      rcases List.mem_append.mp member with earlier | last
      · obtain ⟨requestId, installationId, command, intended⟩ :=
          once.intended event earlier isDispatch
        exact ⟨requestId, installationId, command, intended.append⟩
      · rw [List.mem_singleton.mp last, dispatches] at isDispatch
        cases isDispatch
  | true =>
      cases Event.op_of_dispatches dispatches
      obtain ⟨_, requestId, installationId, command, intended, undispatched, _⟩ := permits careful
      refine ⟨fun event member isDispatch => ?_, ?_⟩
      · rw [performs.journal] at member ⊢
        rcases List.mem_append.mp member with earlier | last
        · obtain ⟨other, installation, otherCommand, otherIntended⟩ :=
            once.intended event earlier isDispatch
          exact ⟨other, installation, otherCommand, otherIntended.append⟩
        · rw [List.mem_singleton.mp last]
          exact ⟨requestId, installationId, command, intended.append⟩
      · have single : dispatched [⟨caller, .client .dispatches, answer⟩] = [requestId] := by
          simp [dispatched, dispatches, Event.requestId?, command]
        rw [appended, single]
        refine List.nodup_append.mpr
          ⟨once.nodup, List.pairwise_singleton _ _, fun old member new last => ?_⟩
        rw [List.mem_singleton.mp last]
        rintro rfl
        exact once.fresh coherent command intended undispatched member

end Dispatches

/-- A mutation is dispatched only while no other operation of the binding is pending. -/
def DispatchesAlone (owner : Owner) (state next : State) : Prop :=
  ∀ event, next.journal = state.journal ++ [event] → event.dispatches = true →
    ∃ requestId, event.requestId? = some requestId ∧
      ∀ row ∈ state.ledger.rows, row.bindingId = owner.bindingId → row.phase ≠ .completed →
        row.requestId = requestId

/-- What the ledger keeps from one state of a run to a later one. -/
structure LedgerKept (owner : Owner) (environment : Environment) (earlier later : State) : Prop where
  advances : ∀ old ∈ earlier.ledger.rows, ∃ new ∈ later.ledger.rows, old.Advances new
  receipts : ∀ row ∈ later.ledger.rows, row.phase = .receiptPending ∨ row.phase = .completed →
    row.receipt.isSome = true
  single : ∀ left ∈ later.ledger.rows, ∀ right ∈ later.ledger.rows,
    left.bindingId = owner.bindingId → right.bindingId = owner.bindingId →
    left.phase ≠ .completed → right.phase ≠ .completed → left = right
  dispatchedOnce : environment.Careful → (dispatched later.journal).Nodup

theorem Phase.pending_iff {phase : Phase} : phase.pending = true ↔ phase ≠ .completed := by
  cases phase <;> simp [pending]

section Guarantee

variable {owner : Owner} {environment : Environment} {ledger : Ledger}
  {pool later : Pool (owner.system environment)}

theorem Lawful.dispatchesAlone (lawful : Lawful owner environment pool) (step : Step pool later)
    (careful : environment.Careful) : DispatchesAlone owner pool.state later.state := by
  intro event appended dispatches
  rcases lawful.permitted step with same | ⟨caller, held, op, answer, performs, permits⟩
  · rw [same] at appended
    simp at appended
  · rw [performs.journal] at appended
    cases List.append_cancel_left appended
    cases Event.op_of_dispatches dispatches
    obtain ⟨_, requestId, installationId, command, _, _, sole⟩ := permits careful
    refine ⟨requestId, by simp [Event.requestId?, command], fun row member binding open' => ?_⟩
    exact sole row member binding (Phase.pending_iff.mpr open')

theorem dispatchedOnce_of_reachable (receipted : ledger.WellReceipted) (careful : environment.Careful)
    (reached : Reachable (State.opened ledger) pool) :
    DispatchedOnce (State.journal pool.state) := by
  induction reached with
  | refl => exact ⟨fun _ member => (by cases member), List.nodup_nil⟩
  | tail before step ih =>
      have lawful := Lawful.of_reachable receipted before
      rcases lawful.permitted step with same | ⟨_, _, _, _, performs, permits⟩
      · rw [same]
        exact ih
      · exact ih.step lawful.coherent careful performs permits

/-- The ledger only moves forward, and mutations are dispatched one at a time. -/
theorem package_runtime_ledger_kept (owner : Owner) (environment : Environment)
    (receipted : ledger.WellReceipted) {pool later : Pool (owner.system environment)}
    (reached : Reachable (State.opened ledger) pool) (run : Relation.ReflTransGen Step pool later) :
    LedgerKept owner environment pool.state later.state ∧
      ∀ next, Step later next → environment.Careful →
        DispatchesAlone owner later.state next.state := by
  have lawful := Lawful.of_reachable receipted reached
  obtain ⟨lawful, grows⟩ := lawful.run run
  refine ⟨⟨fun old member => ?_, fun row member settled => ?_,
    fun left leftMember right rightMember leftHere rightHere leftOpen rightOpen => ?_,
    fun careful => (dispatchedOnce_of_reachable receipted careful (reached.trans run)).nodup⟩,
    fun next step careful => lawful.dispatchesAlone step careful⟩
  · obtain ⟨new, found, advances⟩ := grows old.requestId old (Ledger.lookup_of_mem member)
    exact ⟨new, (Ledger.mem_of_lookup found).1, advances⟩
  · exact (lawful.coherent.receipted row member).mpr settled
  · exact Ledger.pending_unique leftMember rightMember (leftHere.trans rightHere.symm)
      (Phase.pending_iff.mpr leftOpen) (Phase.pending_iff.mpr rightOpen)

end Guarantee

/-- The sample client dispatches once, after its intent was stored. -/
theorem Sample.careful : Sample.client.world.Careful where
  activates := by
    rintro _ _ _ _ _ _ _ ⟨_, rfl⟩ outcome
    cases outcome with
    | ok value => exact ⟨rfl, rfl, fun _ => trivial⟩
    | error raised => exact trivial
  reconciles := by
    rintro _ _ _ _ ⟨_, rfl⟩
    exact trivial

/-- An activation that is looked at half-way and at its end. -/
theorem package_runtime_ledger_kept_activated :
    Sample.client.world.Careful ∧ LedgerKept Sample.owner Sample.client.world
      (Sample.client.play Sample.owner [.start Sample.activation, .run 0 6]).state
      (Sample.client.play Sample.owner [.start Sample.activation, .run 0 6, .run 0 100]).state :=
  ⟨Sample.careful, (package_runtime_ledger_kept Sample.owner Sample.client.world
    (fun _ member => by cases member)
    (Sample.client.play_reached Sample.owner [.start Sample.activation, .run 0 6])
    (Sample.client.play_resumes Sample.owner [.start Sample.activation, .run 0 6] [.run 0 100])).1⟩

end CyreneReactor.PackageRuntime
