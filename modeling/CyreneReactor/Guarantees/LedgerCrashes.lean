import CyreneReactor.Guarantees.OperationLedger
import CyreneReactor.Interaction.Crash

namespace CyreneReactor.PackageRuntime

open Interaction

/-! The operation ledger of a process that may stop at any moment.

The ledger is all a restarted owner knows.  What a stopped activation had asked of the
platform it cannot know, so it asks for nothing again.
-/

section Crashes

variable {owner : Owner} {environment : Environment} {ledger : Ledger}
  {lost : Except Failure PublicState} {pool next later : Pool (owner.system environment)}

/-- Every pool that calls of the owner and crashes lead to, from a stored ledger. -/
abbrev Survived (owner : Owner) (environment : Environment) (ledger : Ledger)
    (lost : Except Failure PublicState) (pool : Pool (owner.system environment)) : Prop :=
  @Survives (owner.system environment) lost (State.opened ledger) pool

theorem discipline_durable : (discipline owner environment).Durable := by
  intro caller held state after coherent guaranteed
  obtain ⟨op, answer, performs, permits⟩ := guaranteed
  exact performs.coherent permits coherent

/-- A call that is cut off comes to `lost`, whatever it has done. -/
def Cut (_caller : Caller Command) (_result : Except Failure PublicState) (_state : State) : Prop :=
  True

theorem Survived.sound (receipted : ledger.WellReceipted)
    (survived : Survived owner environment ledger lost pool) :
    (discipline owner environment).Sound Cut pool ∧ Coherent pool.state := by
  have initial : Lawful owner environment (Pool.initial (State.opened ledger)) :=
    .initial receipted
  refine Discipline.Sound.of_survives discipline_durable ?_ (fun _ _ => trivial) initial.coherent
    (fun index => initial.sound.fresh (Nat.zero_le index)) survived
  intro index command state fresh
  exact (body_verified index command state fresh).mono fun _ _ _ => trivial

theorem Survived.permitted (receipted : ledger.WellReceipted)
    (survived : Survived owner environment ledger lost pool) (step : CrashStep lost pool next) :
    next.state = pool.state ∨ ∃ (index : Nat) (thread : Thread (owner.system environment))
      (op : Op) (answer : op.Answer), pool.threads[index]? = some thread ∧
        (∀ result, thread.program ≠ .pure result) ∧
        Performs environment (thread.caller index) op pool.state answer next.state ∧
        Permits owner environment (thread.caller index) thread.held pool.state op := by
  cases step with
  | crash => exact .inl rfl
  | step step =>
      rcases (survived.sound receipted).1.acted step with
        same | ⟨index, thread, found, busy, op, answer, performs, permits⟩
      · exact .inl same
      · exact .inr ⟨index, thread, op, answer, found, busy, performs, permits⟩

theorem Survived.grows (receipted : ledger.WellReceipted)
    (survived : Survived owner environment ledger lost pool)
    (run : Relation.ReflTransGen (CrashStep lost) pool later) :
    (State.ledger pool.state).Grows (State.ledger later.state) := by
  induction run with
  | refl => exact .refl _
  | @tail middle last before step ih =>
      have reached : Survived owner environment ledger lost middle := survived.trans before
      rcases reached.permitted receipted step with same | ⟨_, _, _, _, _, _, performs, _⟩
      · rw [same]
        exact ih
      · exact ih.trans performs.grows

theorem Survived.dispatchedOnce (receipted : ledger.WellReceipted) (careful : environment.Careful)
    (survived : Survived owner environment ledger lost pool) :
    DispatchedOnce (State.journal pool.state) := by
  induction survived with
  | refl => exact ⟨fun _ member => (by cases member), List.nodup_nil⟩
  | @tail middle last before step ih =>
      have reached : Survived owner environment ledger lost middle := before
      rcases reached.permitted receipted step with same | ⟨_, _, _, _, _, _, performs, permits⟩
      · rw [same]
        exact ih
      · exact ih.step (reached.sound receipted).2 careful performs permits

theorem Survived.dispatchesAlone (receipted : ledger.WellReceipted)
    (careful : environment.Careful) (survived : Survived owner environment ledger lost pool)
    (step : CrashStep lost pool next) : DispatchesAlone owner pool.state next.state := by
  intro event appended dispatches
  rcases survived.permitted receipted step with same | ⟨_, _, op, answer, _, _, performs, permits⟩
  · rw [same] at appended
    simp at appended
  · rw [performs.journal] at appended
    cases List.append_cancel_left appended
    cases Event.op_of_dispatches dispatches
    obtain ⟨_, requestId, installationId, command, _, _, sole⟩ := permits careful
    refine ⟨requestId, by simp [Event.requestId?, command], fun row member binding pending => ?_⟩
    exact sole row member binding (Phase.pending_iff.mpr pending)

theorem Survived.kept (receipted : ledger.WellReceipted)
    (survived : Survived owner environment ledger lost pool)
    (run : Relation.ReflTransGen (CrashStep lost) pool later) :
    LedgerKept owner environment pool.state later.state := by
  have reached : Survived owner environment ledger lost later := survived.trans run
  constructor
  · intro old member
    obtain ⟨new, found, advances⟩ :=
      survived.grows receipted run old.requestId old (Ledger.lookup_of_mem member)
    exact ⟨new, (Ledger.mem_of_lookup found).1, advances⟩
  · intro row member settled
    exact ((reached.sound receipted).2.receipted row member).mpr settled
  · intro left leftMember right rightMember leftHere rightHere leftOpen rightOpen
    exact Ledger.pending_unique leftMember rightMember (leftHere.trans rightHere.symm)
      (Phase.pending_iff.mpr leftOpen) (Phase.pending_iff.mpr rightOpen)
  · exact fun careful => (reached.dispatchedOnce receipted careful).nodup

/-- Only calls that came after the crash act after it. -/
theorem Survived.newcomers (receipted : ledger.WellReceipted)
    (survived : Survived owner environment ledger lost pool)
    (run : Relation.ReflTransGen (CrashStep lost) (pool.crashed lost) later) :
    later.Over pool.threads.length ∧ ∃ events,
      State.journal later.state = State.journal pool.state ++ events ∧
        ∀ event ∈ events, pool.threads.length ≤ event.caller.index := by
  have crashed : Survived owner environment ledger lost (pool.crashed lost) :=
    survived.tail (.crash pool)
  refine Discipline.Sound.newcomers ?_ (fun middle before =>
    (Survived.sound receipted (crashed.trans before)).1) run
  rintro caller held state after ⟨op, answer, performs, _⟩
  exact .inr ⟨_, performs.journal, rfl⟩

/-- A call that came after the crash stores the intents of new requests only. -/
theorem Survived.intendsAnew (receipted : ledger.WellReceipted)
    (survived : Survived owner environment ledger lost pool)
    (run : Relation.ReflTransGen (CrashStep lost) (pool.crashed lost) later)
    {caller : Caller Command} {requestId : String} (young : pool.threads.length ≤ caller.index)
    (intended : Intended caller requestId (State.journal later.state)) :
    (State.ledger pool.state).packageRuntimeOperation requestId = none := by
  have crashed : Survived owner environment ledger lost (pool.crashed lost) :=
    survived.tail (.crash pool)
  induction run with
  | refl =>
      obtain ⟨event, member, rfl, _⟩ := intended
      have fresh := (survived.sound receipted).1.fresh young
      exact absurd rfl (fresh event member)
  | @tail middle last before step ih =>
      have reached : Survived owner environment ledger lost middle := crashed.trans before
      rcases reached.permitted receipted step with
        same | ⟨index, thread, op, answer, _, _, performs, permits⟩
      · exact ih (same ▸ intended)
      rw [performs.journal] at intended
      rcases intended_append.mp intended with earlier | ⟨rfl, stored⟩
      · exact ih earlier
      obtain ⟨⟨_, _, _, rfl⟩, _⟩ := performs.intended stored
      rcases permits.2.2.2.2 with absent | own
      · -- A row that the ledger had would be there still.
        cases known : (State.ledger pool.state).packageRuntimeOperation requestId with
        | none => rfl
        | some old =>
            obtain ⟨new, found, _⟩ := crashed.grows receipted before requestId old known
            rw [found] at absent
            cases absent
      · exact ih own

/-- What a restarted owner does about the requests its ledger knows. -/
structure Halted (owner : Owner) (environment : Environment)
    (pool later : Pool (owner.system environment)) : Prop where
  unrepeated : ∀ events, State.journal later.state = State.journal pool.state ++ events →
    ∀ event ∈ events, event.dispatches = true → ∃ requestId,
      event.requestId? = some requestId ∧
        (State.ledger pool.state).packageRuntimeOperation requestId = none
  blocked : ∀ row ∈ (State.ledger pool.state).rows, row.bindingId = owner.bindingId →
    (∃ still ∈ (State.ledger later.state).rows, still.requestId = row.requestId ∧
      still.phase ≠ .completed) →
    ∀ events, State.journal later.state = State.journal pool.state ++ events →
      ∀ event ∈ events, event.dispatches = false

theorem Survived.unrepeated (receipted : ledger.WellReceipted) (careful : environment.Careful)
    (survived : Survived owner environment ledger lost pool)
    (run : Relation.ReflTransGen (CrashStep lost) (pool.crashed lost) later) {events : List Event}
    (grown : State.journal later.state = State.journal pool.state ++ events) {event : Event}
    (member : event ∈ events) (dispatches : event.dispatches = true) :
    ∃ requestId, event.requestId? = some requestId ∧
      (State.ledger pool.state).packageRuntimeOperation requestId = none := by
  have reached : Survived owner environment ledger lost later :=
    (survived.tail (.crash pool)).trans run
  obtain ⟨_, events', grown', young⟩ := survived.newcomers receipted run
  obtain rfl : events = events' := List.append_cancel_left (grown.symm.trans grown')
  obtain ⟨requestId, installationId, command, intended⟩ :=
    (reached.dispatchedOnce receipted careful).intended event
      (grown ▸ List.mem_append_right _ member) dispatches
  refine ⟨requestId, by simp [Event.requestId?, command], ?_⟩
  exact survived.intendsAnew receipted run (young event member) intended

/-- While an operation the ledger knew is pending, nothing is dispatched for its binding. -/
theorem Survived.blocked (receipted : ledger.WellReceipted) (careful : environment.Careful)
    (survived : Survived owner environment ledger lost pool)
    (run : Relation.ReflTransGen (CrashStep lost) (pool.crashed lost) later) {row : Operation}
    (known : row ∈ (State.ledger pool.state).rows) (binding : row.bindingId = owner.bindingId)
    (pending : ∃ still ∈ (State.ledger later.state).rows, still.requestId = row.requestId ∧
      still.phase ≠ .completed) {events : List Event}
    (grown : State.journal later.state = State.journal pool.state ++ events) :
    ∀ event ∈ events, event.dispatches = false := by
  have crashed : Survived owner environment ledger lost (pool.crashed lost) :=
    survived.tail (.crash pool)
  have found := Ledger.lookup_of_mem known
  induction run generalizing events with
  | refl =>
      have nothing : events = [] := by simpa [Pool.crashed] using grown
      rw [nothing]
      exact fun _ member => absurd member List.not_mem_nil
  | @tail middle last before step ih =>
      have reached : Survived owner environment ledger lost middle := crashed.trans before
      have whole : Relation.ReflTransGen (CrashStep lost) (pool.crashed lost) last :=
        before.tail step
      obtain ⟨old, there, advanced⟩ := crashed.grows receipted before row.requestId row found
      obtain ⟨oldMember, oldNamed⟩ := Ledger.mem_of_lookup there
      have waits : old.phase ≠ .completed := by
        intro completed
        obtain ⟨still, member, named, unfinished⟩ := pending
        obtain ⟨new, here, advances⟩ :=
          reached.grows receipted (.single step) row.requestId old there
        have same := Ledger.lookup_of_mem member
        rw [named, here, Option.some.injEq] at same
        subst same
        rw [advances.completed completed] at unfinished
        exact unfinished completed
      rcases reached.permitted receipted step with
        same | ⟨index, thread, op, answer, _, _, performs, _⟩
      · exact ih ⟨old, oldMember, oldNamed, waits⟩ (same ▸ grown)
      obtain ⟨_, earlier, grown', _⟩ := survived.newcomers receipted before
      have appended : State.journal last.state = State.journal middle.state ++
          [⟨thread.caller index, op, answer⟩] := performs.journal
      have split : events = earlier ++ [⟨thread.caller index, op, answer⟩] := by
        rw [grown', List.append_assoc, grown] at appended
        exact List.append_cancel_left appended
      intro event member
      rw [split] at member
      rcases List.mem_append.mp member with old' | last'
      · exact ih ⟨old, oldMember, oldNamed, waits⟩ grown' event old'
      -- A dispatch would be of the pending request, and no request is dispatched again.
      rw [List.mem_singleton.mp last']
      cases dispatches : Event.dispatches ⟨thread.caller index, op, answer⟩ with
      | false => rfl
      | true =>
          obtain ⟨requestId, requested, sole⟩ :=
            reached.dispatchesAlone receipted careful step _ appended dispatches
          have mine := sole old oldMember (advanced.bindingId.trans binding) waits
          obtain ⟨requestId', requested', unknown⟩ := survived.unrepeated receipted careful whole
            grown (split ▸ List.mem_append_right _ (List.mem_singleton_self _)) dispatches
          rw [requested, Option.some.injEq] at requested'
          rw [← requested', ← mine, oldNamed, found] at unknown
          cases unknown

/-- Wherever the owner's process stops, the ledger only moves forward and no mutation is
dispatched twice; a request that was stored before is not dispatched afterwards, and
nothing is dispatched beside one that is still pending. -/
theorem ledger_survives_crashes (receipted : ledger.WellReceipted)
    (survived : Survived owner environment ledger lost pool)
    (run : Relation.ReflTransGen (CrashStep lost) pool later) :
    LedgerKept owner environment pool.state later.state ∧ (environment.Careful →
      (∀ next, CrashStep lost later next → DispatchesAlone owner later.state next.state) ∧
      ∀ last, Relation.ReflTransGen (CrashStep lost) (later.crashed lost) last →
        Halted owner environment later last) := by
  have reached : Survived owner environment ledger lost later := survived.trans run
  refine ⟨survived.kept receipted run, fun careful => ⟨fun next step => ?_, fun last after => ?_⟩⟩
  · exact reached.dispatchesAlone receipted careful step
  · constructor
    · intro events grown event member dispatches
      exact reached.unrepeated receipted careful after grown member dispatches
    · intro row known binding pending events grown
      exact reached.blocked receipted careful after known binding pending grown

end Crashes

namespace Sample

def recovering : Client := { client with reconciles := reconciliation }

theorem recovering_careful : recovering.world.Careful where
  activates := by
    rintro _ _ _ _ _ _ _ ⟨_, rfl⟩ outcome
    cases outcome with
    | ok value => exact ⟨rfl, rfl, fun _ => trivial⟩
    | error raised => exact trivial
  reconciles := by
    rintro _ _ _ _ ⟨_, rfl⟩ outcome
    cases outcome with
    | ok value => trivial
    | error error => trivial

/-- What becomes of a call that is cut off. -/
def cutOff : Except Failure PublicState := .error (.client none none)

/-- An activation that has gone `fuel` steps. -/
def cut (fuel : Nat) : Pool (owner.system recovering.world) :=
  recovering.play owner [.start activation, .run 0 fuel]

theorem survived_cut (fuel : Nat) :
    Survived owner recovering.world .empty cutOff (cut fuel) :=
  (recovering.play_reached owner _).lift id fun _ _ step => .step step

/-- The process was started again: the activation is asked for once more, then reconciled. -/
def resumed (fuel : Nat) : Pool (owner.system recovering.world) :=
  (recovering.script owner).play ((cut fuel).crashed cutOff)
    [.start activation, .run 1 100, .start (.reconcile "request"), .run 2 100]

theorem resumed_after (fuel : Nat) :
    Relation.ReflTransGen (CrashStep cutOff)
      ((cut fuel).crashed cutOff) (resumed fuel) :=
  ((recovering.script owner).reaches_of_play _ _).lift id fun _ _ step => .step step

end Sample

/-- An activation is cut off when its receipt is pending.  It is not dispatched again, and a
reconciliation completes it; cut off before the receipt, its outcome is unknown. -/
theorem ledger_survives_crashes_sampled :
    (State.ledger (Sample.cut 9).state).rows.map (·.phase) = [.receiptPending] ∧
      (State.ledger (Sample.resumed 9).state).rows.map (·.phase) = [.completed] ∧
      (State.ledger (Sample.resumed 7).state).rows.map (·.phase) = [.unknown] ∧
      Sample.recovering.world.Careful ∧
      LedgerKept Sample.owner Sample.recovering.world (Sample.cut 9).state
        (Sample.resumed 9).state ∧
      Halted Sample.owner Sample.recovering.world (Sample.cut 9) (Sample.resumed 9) := by
  have whole := ledger_survives_crashes (fun _ member => by cases member)
    (Sample.survived_cut 9) ((Sample.resumed_after 9).head (.crash _))
  have crashed := ledger_survives_crashes (fun _ member => by cases member)
    (Sample.survived_cut 9) .refl
  exact ⟨by decide +kernel, by decide +kernel, by decide +kernel, Sample.recovering_careful,
    whole.1, (crashed.2 Sample.recovering_careful).2 _ (Sample.resumed_after 9)⟩

end CyreneReactor.PackageRuntime
