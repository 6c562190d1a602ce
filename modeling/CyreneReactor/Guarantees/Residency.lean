import CyreneReactor.Runtime.ResidencyBooks

namespace CyreneReactor.Runtime.Residency

open Interaction

/-! What `InferenceServer` promises of the models it holds.

One engine of a model at most is in memory whatever the schedule.  A call hands out a
live engine where the callers keep loads and unloads of a model apart, and nothing stays
behind a `shutdown` where nothing is registered behind it.
-/

/-- At most one engine of a model is in memory, and the registry holds it. -/
structure Single (state : State) : Prop where
  alone : ∀ (first second : Nat) (left right : Engine), state.engines[first]? = some left →
    state.engines[second]? = some right → left.modelId = right.modelId →
    left.status.resident = true → right.status.resident = true → first = second
  registered : ∀ modelId, (∀ call ∈ state.calls, call.modelId = modelId → call.phase.isOver = true) →
    ∀ engine, state.registry.lookup modelId = some engine ↔
      ∃ handle, state.engines[engine]? = some handle ∧ handle.modelId = modelId ∧
        handle.status = .loaded

/-- A failed load is cleaned up once, leaves no entry, and the next load goes ahead. -/
structure CleansUp (state : State) : Prop where
  unloaded : ∀ (engine : Nat) (handle : Engine), state.engines[engine]? = some handle →
    handle.status = .failed → handle.unloads = 1 ∨ (handle.unloads = 0 ∧
      ∃ call ∈ state.calls, call.modelId = handle.modelId ∧ call.phase = .cleaning engine)
  unlisted : ∀ (engine : Nat) (handle : Engine), state.engines[engine]? = some handle →
    handle.status = .failed → ∀ modelId, state.registry.lookup modelId ≠ some engine
  noEntry : ∀ call ∈ state.calls, (∃ engine, call.phase = .cleaning engine) ∨
    call.phase = .leaving none → state.registry.lookup call.modelId = none
  unblocked : ∀ call ∈ state.calls, call.phase.isOver = false → (state.next call true).isSome = true ∨
    ∃ holder ∈ state.calls, holder.modelId = call.modelId ∧ holder.phase.critical = true ∧
      ∀ succeeds, (state.next holder succeeds).isSome = true
  loadsAgain : ∀ modelId, state.isShuttingDown = false →
    (∀ call ∈ state.calls, call.modelId = modelId → call.phase.isOver = true) →
    state.registry.lookup modelId = none → ∃ after,
      machine.play (fun _ _ => true) state (.ensureModel modelId false ::
        List.replicate 5 (.advance state.calls.length true)) = some after ∧
      after.calls[state.calls.length]? = some ⟨modelId, false, .loading state.engines.length⟩

/-- A model whose engine did not unload stays registered with it. -/
def KeepsUnloadable (state : State) : Prop :=
  ∀ (place : Nat) (call : Call) (engine : Nat) (after : State),
    state.calls[place]? = some call → call.phase = .unloading engine →
    machine.step state (.advance place false) = some after →
    after.registry.lookup call.modelId = some engine ∧
      ∃ handle, after.engines[engine]? = some handle ∧ handle.modelId = call.modelId ∧
        handle.status = .loaded

section Single

variable {state after : State} {event : Event}

theorem critical_of_over {phase : Phase} (isOver : phase.isOver = true) : phase.critical = false := by
  cases phase <;> simp_all [Phase.isOver, Phase.critical]

theorem Consistent.free (consistent : Consistent state) {modelId : String}
    (quiet : ∀ call ∈ state.calls, call.modelId = modelId → call.phase.isOver = true) :
    ∃ registered live, Books state modelId registered live ∧ Settled registered live := by
  obtain ⟨registered, live, books, _, settled⟩ := consistent.books modelId
  exact ⟨registered, live, books,
    settled (locked_eq_false.mpr fun call member own => critical_of_over (quiet call member own))⟩

theorem Consistent.isSingle (consistent : Consistent state) : Single state where
  alone := fun first second left right here there own inside also => by
    obtain ⟨_, live, books, _⟩ := consistent.books left.modelId
    have one := books.only first left here rfl inside
    have two := books.only second right there own.symm also
    rw [one, Option.some.injEq, Prod.mk.injEq] at two
    exact two.1
  registered := fun modelId quiet engine => by
    obtain ⟨registered, live, books, settled⟩ := consistent.free quiet
    constructor
    · intro found
      obtain rfl : registered = some engine := books.lookup.symm.trans found
      exact (books.present engine .loaded settled).2
    · rintro ⟨handle, here, own, loaded⟩
      have inMemory := books.only engine handle here own (by simp [loaded, EngineStatus.resident])
      rw [settled] at inMemory
      cases registered with
      | none => cases inMemory
      | some known =>
          obtain ⟨rfl, _⟩ := Prod.mk.inj (Option.some.inj inMemory)
          exact books.lookup

/-- Each failed engine was unloaded once, or its load is about to do so. -/
def Unloaded (state : State) : Prop :=
  ∀ (engine : Nat) (handle : Engine), state.engines[engine]? = some handle →
    handle.status = .failed → handle.unloads = 1 ∨ (handle.unloads = 0 ∧
      ∃ call ∈ state.calls, call.modelId = handle.modelId ∧ call.phase = .cleaning engine)

theorem Unloaded.of_mem (unloaded : Unloaded state) (engines : after.engines = state.engines)
    (calls : ∀ call ∈ state.calls, call ∈ after.calls) : Unloaded after := by
  intro engine handle here failed
  rw [engines] at here
  rcases unloaded engine handle here failed with once | ⟨never, call, member, cleans⟩
  · exact .inl once
  · exact .inr ⟨never, call, calls call member, cleans⟩

/-- A call moved on: each failed engine was failed before, or it is the call that
cleans it up. -/
theorem Unloaded.advanced {place : Nat} {call : Call} {phase : Phase} {effect : Effect}
    (unloaded : Unloaded state) (here : state.calls[place]? = some call)
    (fails : ∀ (engine : Nat) (handle : Engine),
      (state.perform call.modelId effect).engines[engine]? = some handle →
      handle.status = .failed →
      (state.engines[engine]? = some handle ∧ call.phase ≠ .cleaning engine) ∨ handle.unloads = 1 ∨
        (handle.unloads = 0 ∧ call.modelId = handle.modelId ∧ phase = .cleaning engine)) :
    Unloaded ((state.perform call.modelId effect).setPhase place phase) := by
  intro engine handle there failed
  rcases fails engine handle there failed with ⟨before, idle⟩ | once | ⟨never, own, cleaning⟩
  · rcases unloaded engine handle before failed with once | ⟨never, cleaner, member, own, cleaning⟩
    · exact .inl once
    · obtain ⟨other, found⟩ := List.getElem?_of_mem member
      have different : other ≠ place := by
        rintro rfl
        cases here.symm.trans found
        exact idle cleaning
      exact .inr ⟨never, cleaner, (mem_advanced here).2 other cleaner different found, own, cleaning⟩
  · exact .inl once
  · exact .inr ⟨never, { call with phase }, (mem_advanced here).1, own, cleaning⟩

/-- What a call inside the block of its lock may rely on. -/
theorem Consistent.agrees {place : Nat} {call : Call} {phase : Phase}
    (consistent : Consistent state) (here : state.calls[place]? = some call)
    (stands : call.phase = phase) (inside : phase.critical = true) :
    ∃ registered live, Books state call.modelId registered live ∧
      Agrees state call.modelId registered live phase := by
  subst stands
  obtain ⟨registered, live, books, agrees, _⟩ := consistent.books call.modelId
  exact ⟨registered, live, books, agrees call (List.mem_of_getElem? here) rfl inside⟩

/-- The engine a call unloads is the registered one, and it is loaded. -/
theorem Consistent.unloading {place engine : Nat} {call : Call} (consistent : Consistent state)
    (here : state.calls[place]? = some call) (stands : call.phase = .unloading engine) :
    state.registry.lookup call.modelId = some engine ∧ ∃ handle,
      state.engines[engine]? = some handle ∧ handle.modelId = call.modelId ∧
        handle.status = .loaded := by
  obtain ⟨_, _, books, rfl, rfl⟩ := consistent.agrees here stands rfl
  exact ⟨books.lookup, (books.present engine .loaded rfl).2⟩

theorem Unloaded.acted {place : Nat} {call : Call} {phase : Phase} {effect : Effect}
    {succeeds : Bool} (unloaded : Unloaded state) (consistent : Consistent state)
    (here : state.calls[place]? = some call) (acted : Acted state call succeeds phase effect) :
    Unloaded ((state.perform call.modelId effect).setPhase place phase) := by
  refine unloaded.advanced here fun engine handle there failed => ?_
  cases acted with
  | passed _ _ idle => exact .inl ⟨there, idle engine⟩
  | created stands =>
      rcases Counting.getElem?_append_singleton_cases there with before | ⟨_, rfl⟩
      · exact .inl ⟨before, by simp [stands]⟩
      · cases failed
  | loaded own stands =>
      obtain ⟨_, _, _, agrees⟩ := consistent.agrees here stands rfl
      have found := (getElem?_setEngine agrees.2.2 engine).symm.trans there
      split at found
      · cases found
        cases failed
      · exact .inl ⟨found, by simp [stands]⟩
  | failed own stands =>
      obtain ⟨_, _, _, agrees⟩ := consistent.agrees here stands rfl
      have found := (getElem?_setEngine agrees.2.2 engine).symm.trans there
      split at found
      · rename_i same
        cases found
        exact .inr (.inr ⟨rfl, rfl, same ▸ rfl⟩)
      · exact .inl ⟨found, by simp [stands]⟩
  | cleaned own stands =>
      obtain ⟨_, _, _, agrees⟩ := consistent.agrees here stands rfl
      have found := (getElem?_setEngine agrees.2.2 engine).symm.trans there
      split at found
      · cases found
        exact .inr (.inl rfl)
      · rename_i different
        exact .inl ⟨found, by simpa [stands] using different⟩
  | registered own stands | unregistered own stands => exact .inl ⟨there, by simp [stands]⟩
  | released own stands | kept own stands =>
      obtain ⟨_, before, standing, _⟩ := consistent.unloading here stands
      have found := (getElem?_setEngine standing engine).symm.trans there
      split at found
      · cases found
        cases failed
      · exact .inl ⟨found, by simp [stands]⟩

theorem Unloaded.stepped (unloaded : Unloaded state) (consistent : Consistent state)
    (stepped : Stepped state event after) : Unloaded after := by
  cases stepped with
  | ensures modelId placeholder =>
      exact unloaded.of_mem rfl fun call member => List.mem_append_left _ member
  | unloads modelId => exact unloaded.of_mem rfl fun call member => List.mem_append_left _ member
  | shuts => exact unloaded.of_mem rfl fun call member => member
  | advanced place succeeds call phase effect here moved =>
      exact unloaded.acted consistent here (acted_of_next moved)
  | wound place after wound =>
      cases wound with
      | called modelId rest here =>
          exact unloaded.of_mem rfl fun call member => List.mem_append_left _ member
      | flagged | stopped | snapshotted | returned | finished =>
          exact unloaded.of_mem rfl fun call member => member

theorem unloaded_of_runs {allowed : State → Event → Prop}
    (runs : machine.Runs allowed initial state) : Unloaded state := by
  have both : Consistent state ∧ Unloaded state := by
    refine runs.invariant (fun state => Consistent state ∧ Unloaded state)
      (fun _ _ _ kept _ stepped => ⟨kept.1.stepped (stepped_of_step stepped),
        kept.2.stepped kept.1 (stepped_of_step stepped)⟩) ⟨consistent_initial, ?_⟩
    intro engine handle here
    cases here
  exact both.2

/-- A call inside the block of its lock is never held up. -/
theorem next_of_critical {call : Call} (inside : call.phase.critical = true) (succeeds : Bool) :
    (state.next call succeeds).isSome = true := by
  unfold State.next
  cases stands : call.phase with
  | entering | peeking | awaiting | returning | unloadAwaiting | unloaded | handedOut | raised =>
      rw [stands] at inside
      cases inside
  | rechecking | looking =>
      simp only
      split <;> rfl
  | leaving engine => cases engine <;> rfl
  | connecting | loading | unloading => cases succeeds <;> rfl
  | cleaning | registering | unregistering | unloadLeaving => rfl

theorem next_or_held {call : Call} (running : call.phase.isOver = false) :
    (state.next call true).isSome = true ∨
    ∃ holder ∈ state.calls, holder.modelId = call.modelId ∧ holder.phase.critical = true ∧
      ∀ succeeds, (state.next holder succeeds).isSome = true := by
  cases inside : call.phase.critical with
  | true => exact .inl (next_of_critical inside true)
  | false =>
      cases free : state.locked call.modelId with
      | true =>
          simp only [State.locked, List.any_eq_true, Bool.and_eq_true, beq_iff_eq] at free
          obtain ⟨holder, member, own, holds⟩ := free
          exact .inr ⟨holder, member, own, holds, next_of_critical holds⟩
      | false =>
          refine .inl ?_
          unfold State.next
          cases stands : call.phase with
          | peeking =>
              simp only
              split <;> rfl
          | awaiting | unloadAwaiting => simp [free]
          | entering | returning => rfl
          | handedOut | raised | unloaded =>
              rw [stands] at running
              cases running
          | rechecking | connecting | loading | cleaning | registering | leaving | looking
          | unloading | unregistering | unloadLeaving =>
              rw [stands] at inside
              cases inside

theorem advance_entered {call : Call} {succeeds : Bool} {phase : Phase} {effect : Effect}
    (moved : (state.enter call).next call succeeds = some (phase, effect)) :
    machine.step (state.enter call) (.advance state.calls.length succeeds) =
      some (((state.enter call).perform call.modelId effect).setPhase state.calls.length phase) := by
  have here : (state.enter call).calls[state.calls.length]? = some call := List.getElem?_concat_length
  simp only [machine, State.step, State.advance, here, moved, Option.map_some]

theorem setPhase_entered {call : Call} {phase : Phase} :
    (state.enter call).setPhase state.calls.length phase = state.enter { call with phase } := by
  simp [State.enter, State.setPhase, List.modify_eq_take_drop]

/-- A call of `ensure_model` on its own gets as far as loading an engine. -/
theorem loads_again {modelId : String} (accepts : state.isShuttingDown = false)
    (quiet : ∀ call ∈ state.calls, call.modelId = modelId → call.phase.isOver = true)
    (absent : state.registry.lookup modelId = none) : ∃ after,
      machine.play (fun _ _ => true) state (.ensureModel modelId false ::
        List.replicate 5 (.advance state.calls.length true)) = some after ∧
      after.calls[state.calls.length]? = some ⟨modelId, false, .loading state.engines.length⟩ := by
  have free : (state.enter ⟨modelId, false, .awaiting⟩).locked modelId = false := by
    refine locked_eq_false.mpr fun call member own => ?_
    rcases List.mem_append.mp member with before | last
    · exact critical_of_over (quiet call before own)
    · rw [List.mem_singleton.mp last]
      rfl
  have entering : (state.enter ⟨modelId, false, .entering⟩).next ⟨modelId, false, .entering⟩ true =
      some (.peeking, .nothing) := by simp [State.next, State.enter, accepts]
  have peeking : (state.enter ⟨modelId, false, .peeking⟩).next ⟨modelId, false, .peeking⟩ true =
      some (.awaiting, .nothing) := by simp [State.next, State.enter, absent]
  have awaiting : (state.enter ⟨modelId, false, .awaiting⟩).next ⟨modelId, false, .awaiting⟩ true =
      some (.rechecking, .nothing) := by simp [State.next, free]
  have rechecking : (state.enter ⟨modelId, false, .rechecking⟩).next
      ⟨modelId, false, .rechecking⟩ true = some (.connecting, .nothing) := by
    simp [State.next, State.enter, absent]
  have connecting : (state.enter ⟨modelId, false, .connecting⟩).next
      ⟨modelId, false, .connecting⟩ true = some (.loading state.engines.length, .create) := rfl
  refine ⟨((state.enter ⟨modelId, false, .connecting⟩).perform modelId .create).setPhase
    state.calls.length (.loading state.engines.length), ?_, ?_⟩
  · have entered : machine.step state (.ensureModel modelId false) =
        some (state.enter ⟨modelId, false, .entering⟩) := rfl
    rw [Machine.play_cons rfl entered]
    rw [List.replicate_succ, Machine.play_cons rfl (advance_entered entering), State.perform,
      setPhase_entered]
    rw [List.replicate_succ, Machine.play_cons rfl (advance_entered peeking), State.perform,
      setPhase_entered]
    rw [List.replicate_succ, Machine.play_cons rfl (advance_entered awaiting), State.perform,
      setPhase_entered]
    rw [List.replicate_succ, Machine.play_cons rfl (advance_entered rechecking), State.perform,
      setPhase_entered]
    rw [List.replicate_succ, Machine.play_cons rfl (advance_entered connecting)]
    rfl
  · simp [State.setPhase, State.perform, State.enter]

theorem Consistent.cleansUp (consistent : Consistent state) (unloaded : Unloaded state) :
    CleansUp state where
  unloaded := unloaded
  unlisted := fun engine handle here failed modelId listed => by
    obtain ⟨registered, _, books, _⟩ := consistent.books modelId
    obtain ⟨known, there, _, stands⟩ := books.known engine (books.lookup.symm.trans listed)
    cases here.symm.trans there
    rw [failed] at stands
    rcases stands with loaded | released
    · cases loaded
    · cases released
  noEntry := fun call member stands => by
    obtain ⟨place, here⟩ := List.getElem?_of_mem member
    rcases stands with ⟨engine, cleaning⟩ | leaving
    · obtain ⟨_, _, books, agrees⟩ := consistent.agrees here cleaning rfl
      exact books.lookup.trans agrees.1
    · obtain ⟨_, _, books, agrees⟩ := consistent.agrees here leaving rfl
      exact books.lookup.trans agrees.1
  unblocked := fun _ _ running => next_or_held running
  loadsAgain := fun _ accepts quiet absent => loads_again accepts quiet absent

theorem Consistent.keepsUnloadable (consistent : Consistent state) : KeepsUnloadable state := by
  intro place call engine after here stands stepped
  obtain ⟨registered, handle, found, own, _⟩ := consistent.unloading here stands
  have moved : state.next call false = some (.unloadLeaving true, .unload engine .loaded) := by
    simp [State.next, stands]
  simp only [machine, State.step, State.advance, here, moved, Option.map_some,
    Option.some.injEq] at stepped
  subst stepped
  refine ⟨registered, { handle with status := .loaded, unloads := handle.unloads + 1 }, ?_, own,
    rfl⟩
  exact (getElem?_setEngine found engine).trans (if_pos rfl)

end Single

/-- One residency of a model, whatever the schedule and whatever the engines answer. -/
theorem residency_is_single (state : State)
    (runs : machine.Runs (fun _ _ => True) initial state) :
    Single state ∧ CleansUp state ∧ KeepsUnloadable state :=
  ⟨(consistent_of_runs runs).isSingle,
    (consistent_of_runs runs).cleansUp (unloaded_of_runs runs),
    (consistent_of_runs runs).keepsUnloadable⟩

/-- Two calls for one model; the engine of the first does not load, and the one of the
second does not unload. -/
def failsOnce : List Event :=
  [.ensureModel "a" false, .ensureModel "a" false, .advance 0 true, .advance 1 true,
    .advance 0 true, .advance 1 true, .advance 0 true, .advance 0 true, .advance 0 true,
    .advance 0 false, .advance 0 true, .advance 0 true, .advance 1 true, .advance 1 true,
    .advance 1 true, .advance 1 true, .advance 1 true, .advance 1 true, .advance 1 true,
    .unloadModel "a", .advance 2 true, .advance 2 true, .advance 2 false, .advance 2 true]

def failedOnce : State where
  isShuttingDown := false
  registry := AList.insert "a" 1 ∅
  engines := [⟨"a", .failed, 1⟩, ⟨"a", .loaded, 1⟩]
  calls := [⟨"a", false, .raised⟩, ⟨"a", false, .handedOut 1⟩, ⟨"a", false, .unloaded true⟩]
  shutdowns := []

theorem residency_is_single_after_failures :
    Single failedOnce ∧ CleansUp failedOnce ∧ KeepsUnloadable failedOnce := by
  have played : machine.play (fun _ _ => true) initial failsOnce = some failedOnce := rfl
  exact residency_is_single failedOnce (Machine.runs_of_play (fun _ _ _ => trivial) played)

/-- An engine about to be returned is still loaded. -/
def HandsOutLive (state : State) : Prop :=
  ∀ call ∈ state.calls, ∀ engine, call.phase = .returning engine →
    ∃ handle, state.engines[engine]? = some handle ∧ handle.status = .loaded

/-- `ensure_model` is under way. -/
def Phase.isEnsuring : Phase → Bool
  | .entering | .peeking | .awaiting | .rechecking | .connecting | .loading _ | .cleaning _
  | .registering _ | .leaving _ | .returning _ => true
  | _ => false

/-- `unload_model` is under way. -/
def Phase.isUnloading : Phase → Bool
  | .unloadAwaiting | .looking | .unloading _ | .unregistering _ | .unloadLeaving _ => true
  | _ => false

def State.busy (state : State) (modelId : String) (kind : Phase → Bool) : Bool :=
  state.calls.any fun call => call.modelId == modelId && kind call.phase

/-- No call of `unload_model`, a `shutdown`'s included, starts while `ensure_model` is under way
for its model, nor the other way round. -/
def State.apart (state : State) : Event → Bool
  | .ensureModel modelId _ => !state.busy modelId Phase.isUnloading
  | .unloadModel modelId => !state.busy modelId Phase.isEnsuring
  | .wind place =>
      match state.shutdowns[place]? with
      | some (.unloadEach (modelId :: _)) => !state.busy modelId Phase.isEnsuring
      | _ => true
  | .shutdown | .advance _ _ => true

section HandsOut

variable {state after : State} {event : Event} {place : Nat} {call : Call} {phase : Phase}
  {effect : Effect} {succeeds : Bool} {engine : Nat} {handle : Engine}

theorem next_returning (moved : state.next call succeeds = some (.returning engine, effect)) :
    effect = .nothing ∧
      ((call.phase = .peeking ∧ state.registry.lookup call.modelId = some engine) ∨
        call.phase = .leaving (some engine)) := by
  unfold State.next at moved
  cases stands : call.phase with
  | entering =>
      simp only [stands] at moved
      cases flag : state.isShuttingDown <;> simp [flag] at moved
  | peeking =>
      simp only [stands] at moved
      cases registered : state.registry.lookup call.modelId with
      | none => cases placeholder : call.placeholder <;> simp [registered, placeholder] at moved
      | some found =>
          rw [registered] at moved
          cases moved
          exact ⟨rfl, .inl ⟨rfl, rfl⟩⟩
  | rechecking | looking =>
      simp only [stands] at moved
      cases registered : state.registry.lookup call.modelId <;> simp [registered] at moved
  | awaiting | unloadAwaiting =>
      simp only [stands] at moved
      cases free : state.locked call.modelId <;> simp [free] at moved
  | connecting | loading | unloading => cases succeeds <;> simp [stands] at moved
  | leaving found =>
      cases found with
      | none => simp [stands] at moved
      | some found =>
          simp only [stands] at moved
          cases moved
          exact ⟨rfl, .inr rfl⟩
  | cleaning | registering | returning | unregistering | unloadLeaving => simp [stands] at moved
  | handedOut | raised | unloaded => simp [stands] at moved

/-- A loaded engine stays loaded, unless it is unloaded. -/
theorem loaded_acted (consistent : Consistent state) (here : state.calls[place]? = some call)
    (acted : Acted state call succeeds phase effect) (there : state.engines[engine]? = some handle)
    (loaded : handle.status = .loaded) :
    (call.phase = .unloading engine ∧ succeeds = true) ∨ ∃ known,
      (state.perform call.modelId effect).engines[engine]? = some known ∧
        known.modelId = handle.modelId ∧ known.status = .loaded := by
  have changed (own : Nat) (before : Engine) (change : Engine → Engine)
      (standing : state.engines[own]? = some before)
      (different : own = engine →
        (change before).modelId = before.modelId ∧ (change before).status = .loaded) :
      ∃ known, (state.setEngine own change).engines[engine]? = some known ∧
        known.modelId = handle.modelId ∧ known.status = .loaded := by
    rw [getElem?_setEngine standing]
    split
    · rename_i same
      subst same
      cases there.symm.trans standing
      exact ⟨_, rfl, different rfl⟩
    · exact ⟨handle, there, rfl, loaded⟩
  have other {own : Nat} {before : Engine} (standing : state.engines[own]? = some before)
      (status : before.status ≠ .loaded) : own ≠ engine := by
    rintro rfl
    cases there.symm.trans standing
    exact status loaded
  cases acted with
  | passed | registered | unregistered => exact .inr ⟨handle, there, rfl, loaded⟩
  | created =>
      exact .inr ⟨handle, (List.getElem?_append_left (List.getElem?_eq_some_iff.mp there).1).trans
        there, rfl, loaded⟩
  | loaded own stands | failed own stands =>
      obtain ⟨_, _, _, agrees⟩ := consistent.agrees here stands rfl
      exact .inr (changed own _ _ agrees.2.2 fun same =>
        absurd same (other agrees.2.2 (by simp)))
  | cleaned own stands =>
      obtain ⟨_, _, _, agrees⟩ := consistent.agrees here stands rfl
      exact .inr (changed own _ _ agrees.2.2 fun same =>
        absurd same (other agrees.2.2 (by simp)))
  | released own stands works =>
      by_cases same : own = engine
      · exact .inl ⟨same ▸ stands, works⟩
      · obtain ⟨_, before, standing, _⟩ := consistent.unloading here stands
        exact .inr (changed own before _ standing fun equal => absurd equal same)
  | kept own stands =>
      obtain ⟨_, before, standing, _⟩ := consistent.unloading here stands
      exact .inr (changed own before _ standing fun _ => ⟨rfl, rfl⟩)

/-- A step goes on with the function that the call is of. -/
theorem next_kind (moved : state.next call succeeds = some (phase, effect)) :
    (phase.isEnsuring = true → call.phase.isEnsuring = true) ∧
      (phase.isUnloading = true → call.phase.isUnloading = true) := by
  unfold State.next at moved
  cases stands : call.phase with
  | entering | peeking | awaiting | rechecking | connecting | loading | cleaning | registering
  | returning =>
      refine ⟨fun _ => rfl, fun unloading => ?_⟩
      simp only [stands] at moved
      grind [Phase.isUnloading]
  | leaving engine =>
      refine ⟨fun _ => rfl, fun unloading => ?_⟩
      cases engine <;> (simp only [stands] at moved; cases moved; cases unloading)
  | unloadAwaiting | looking | unloading | unregistering | unloadLeaving =>
      refine ⟨fun ensuring => ?_, fun _ => rfl⟩
      simp only [stands] at moved
      grind [Phase.isEnsuring]
  | handedOut | raised | unloaded => simp [stands] at moved

/-- No model is at once ensured and unloaded. -/
def Separate (state : State) : Prop :=
  ∀ call ∈ state.calls, ∀ other ∈ state.calls, call.modelId = other.modelId →
    call.phase.isEnsuring = true → other.phase.isUnloading = true → False

theorem busy_eq_false {modelId : String} {kind : Phase → Bool} :
    state.busy modelId kind = false ↔
      ∀ call ∈ state.calls, call.modelId = modelId → kind call.phase = false := by
  simp only [State.busy, List.any_eq_false, Bool.and_eq_true, beq_iff_eq, not_and,
    Bool.not_eq_true]

theorem Separate.enter (separate : Separate state)
    (ensures : call.phase.isEnsuring = true → state.busy call.modelId Phase.isUnloading = false)
    (unloads : call.phase.isUnloading = true → state.busy call.modelId Phase.isEnsuring = false)
    (single : call.phase.isEnsuring = true → call.phase.isUnloading = false) :
    Separate (state.enter call) := by
  intro first member second member' same ensuring unloading
  rcases List.mem_append.mp member with before | last
  · rcases List.mem_append.mp member' with before' | last'
    · exact separate first before second before' same ensuring unloading
    · obtain rfl := List.mem_singleton.mp last'
      have idle := busy_eq_false.mp (unloads unloading) first before same
      rw [ensuring] at idle
      cases idle
  · obtain rfl := List.mem_singleton.mp last
    rcases List.mem_append.mp member' with before' | last'
    · have idle := busy_eq_false.mp (ensures ensuring) second before' same.symm
      rw [unloading] at idle
      cases idle
    · rw [List.mem_singleton.mp last', single ensuring] at unloading
      cases unloading

theorem Separate.advanced (separate : Separate state) (here : state.calls[place]? = some call)
    (moved : state.next call succeeds = some (phase, effect)) :
    Separate ((state.perform call.modelId effect).setPhase place phase) := by
  -- The call that moved is of the same function as before.
  have origin : ∀ found ∈ ((state.perform call.modelId effect).setPhase place phase).calls,
      ∃ before ∈ state.calls, before.modelId = found.modelId ∧
        (found.phase.isEnsuring = true → before.phase.isEnsuring = true) ∧
        (found.phase.isUnloading = true → before.phase.isUnloading = true) := by
    intro found member
    obtain ⟨other, there⟩ := List.getElem?_of_mem member
    rcases getElem?_advanced here there with ⟨rfl, rfl⟩ | ⟨_, before⟩
    · exact ⟨call, List.mem_of_getElem? here, rfl, next_kind moved⟩
    · exact ⟨found, List.mem_of_getElem? before, rfl, id, id⟩
  intro first member second member' same ensuring unloading
  obtain ⟨one, inside, own, ensures, _⟩ := origin first member
  obtain ⟨two, inside', own', _, unloads⟩ := origin second member'
  exact separate one inside two inside' (own.trans (same.trans own'.symm)) (ensures ensuring)
    (unloads unloading)

/-- While no call unloads a model, the engine registered for it is loaded. -/
theorem Consistent.loaded_of_lookup (consistent : Consistent state) {modelId : String}
    (registered : state.registry.lookup modelId = some engine)
    (idle : ∀ call ∈ state.calls, call.modelId = modelId → call.phase.isUnloading = false) :
    ∃ handle, state.engines[engine]? = some handle ∧ handle.modelId = modelId ∧
      handle.status = .loaded := by
  obtain ⟨entry, live, books, agrees, settled⟩ := consistent.books modelId
  obtain rfl : entry = some engine := books.lookup.symm.trans registered
  have loaded : live = some (engine, .loaded) := by
    cases free : state.locked modelId with
    | false => exact settled free
    | true =>
        obtain ⟨holder, member, inside⟩ := List.any_eq_true.mp free
        rw [Bool.and_eq_true, beq_iff_eq] at inside
        obtain ⟨own, critical⟩ := inside
        have agreed := agrees holder member own critical
        have keeps := idle holder member own
        cases stands : holder.phase with
        | rechecking => rwa [stands] at agreed
        | connecting | loading | cleaning | registering =>
            rw [stands] at agreed
            cases agreed.1
        | leaving found =>
            rw [stands] at agreed
            cases found with
            | none => cases agreed.1
            | some found =>
                obtain ⟨same, live⟩ := agreed
                cases same
                exact live
        | looking | unloading | unregistering | unloadLeaving =>
            rw [stands] at keeps
            cases keeps
        | entering | peeking | awaiting | returning | unloadAwaiting | unloaded | handedOut
        | raised =>
            rw [stands] at critical
            cases critical
  exact (books.present engine .loaded loaded).2

/-- An engine about to be returned is loaded, and of the call's model. -/
def ReturnsOwn (state : State) : Prop :=
  ∀ call ∈ state.calls, ∀ engine, call.phase = .returning engine →
    ∃ handle, state.engines[engine]? = some handle ∧ handle.modelId = call.modelId ∧
      handle.status = .loaded

theorem ReturnsOwn.enter (returns : ReturnsOwn state)
    (idle : ∀ engine, call.phase ≠ .returning engine) : ReturnsOwn (state.enter call) := by
  intro found member engine returning
  rcases List.mem_append.mp member with before | last
  · exact returns found before engine returning
  · rw [List.mem_singleton.mp last] at returning
    exact absurd returning (idle engine)

theorem ReturnsOwn.advanced (returns : ReturnsOwn state) (consistent : Consistent state)
    (separate : Separate state) (here : state.calls[place]? = some call)
    (moved : state.next call succeeds = some (phase, effect)) :
    ReturnsOwn ((state.perform call.modelId effect).setPhase place phase) := by
  intro found member engine returning
  obtain ⟨other, there⟩ := List.getElem?_of_mem member
  rcases getElem?_advanced here there with ⟨rfl, rfl⟩ | ⟨different, before⟩
  · obtain rfl : phase = .returning engine := returning
    obtain ⟨rfl, ⟨stands, registered⟩ | stands⟩ := next_returning moved
    · apply consistent.loaded_of_lookup registered
      intro holder inside own
      cases unloading : holder.phase.isUnloading with
      | false => rfl
      | true =>
          exact (separate call (List.mem_of_getElem? here) holder inside own.symm
            (by simp [stands, Phase.isEnsuring]) unloading).elim
    · obtain ⟨_, _, books, agrees⟩ := consistent.agrees here stands rfl
      exact (books.present engine .loaded agrees.2).2
  · obtain ⟨handle, standing, own, loaded⟩ :=
      returns found (List.mem_of_getElem? before) engine returning
    rcases loaded_acted consistent here (acted_of_next moved) standing loaded with
      ⟨stands, _⟩ | ⟨known, now, same, still⟩
    · obtain ⟨_, unloaded, there, belongs, _⟩ := consistent.unloading here stands
      cases standing.symm.trans there
      exact (separate found (List.mem_of_getElem? before) call (List.mem_of_getElem? here)
        (own.symm.trans belongs) (by simp [returning, Phase.isEnsuring])
        (by simp [stands, Phase.isUnloading])).elim
    · exact ⟨known, now, same.trans own, still⟩

/-- What every step keeps whose callers keep apart. -/
structure Apart (state : State) : Prop where
  consistent : Consistent state
  separate : Separate state
  returns : ReturnsOwn state

theorem Apart.enter (apart : Apart state)
    (ensures : call.phase.isEnsuring = true → state.busy call.modelId Phase.isUnloading = false)
    (unloads : call.phase.isUnloading = true → state.busy call.modelId Phase.isEnsuring = false)
    (starts : call.phase = .entering ∨ call.phase = .unloadAwaiting) :
    Apart (state.enter call) := by
  obtain ⟨consistent, separate, returns⟩ := apart
  rcases starts with stands | stands
  · exact ⟨consistent.enter (by rw [stands]; rfl),
      separate.enter ensures unloads (by simp [stands, Phase.isUnloading]),
      returns.enter (by simp [stands])⟩
  · exact ⟨consistent.enter (by rw [stands]; rfl),
      separate.enter ensures unloads (by simp [stands, Phase.isEnsuring]),
      returns.enter (by simp [stands])⟩

theorem Apart.stepped (apart : Apart state) (allowed : state.apart event = true)
    (stepped : Stepped state event after) : Apart after := by
  cases stepped with
  | ensures modelId placeholder =>
      refine apart.enter (fun _ => ?_) nofun (.inl rfl)
      simpa only [State.apart, Bool.not_eq_true'] using allowed
  | unloads modelId =>
      refine apart.enter nofun (fun _ => ?_) (.inr rfl)
      simpa only [State.apart, Bool.not_eq_true'] using allowed
  | shuts => exact ⟨apart.consistent.relabel _ _, apart.separate, apart.returns⟩
  | advanced place succeeds call phase effect here moved =>
      exact ⟨apart.consistent.advance here moved, apart.separate.advanced here moved,
        apart.returns.advanced apart.consistent apart.separate here moved⟩
  | wound place after wound =>
      cases wound with
      | called modelId rest here =>
          simp only [State.apart, here, Bool.not_eq_true'] at allowed
          have entered : Apart (state.enter ⟨modelId, false, .unloadAwaiting⟩) :=
            apart.enter nofun (fun _ => allowed) (.inr rfl)
          exact ⟨entered.consistent.relabel _ _, entered.separate, entered.returns⟩
      | flagged | stopped | snapshotted | returned | finished =>
          exact ⟨apart.consistent.relabel _ _, apart.separate, apart.returns⟩

end HandsOut

/-- Where the callers keep loads and unloads of a model apart, engines are live when they are
returned. -/
theorem handed_out_engines_are_live (state : State)
    (runs : machine.Runs (fun state event => state.apart event = true) initial state) :
    HandsOutLive state := by
  have apart : Apart state := by
    refine runs.invariant Apart (fun _ _ _ kept allowed stepped =>
      kept.stepped allowed (stepped_of_step stepped)) ⟨consistent_initial, ?_, ?_⟩
    · intro call member
      cases member
    · intro call member
      cases member
  intro call member engine returning
  obtain ⟨handle, standing, _, loaded⟩ := apart.returns call member engine returning
  exact ⟨handle, standing, loaded⟩

/-- The engine of "a" is unloaded, and its entry is read before it is removed. -/
def readsStale : List Event :=
  [.ensureModel "a" false, .advance 0 true, .advance 0 true, .advance 0 true, .advance 0 true,
    .advance 0 true, .advance 0 true, .advance 0 true, .advance 0 true, .advance 0 true,
    .unloadModel "a", .advance 1 true, .advance 1 true, .advance 1 true, .ensureModel "a" false,
    .advance 2 true, .advance 2 true]

def staleRead : State where
  isShuttingDown := false
  registry := AList.insert "a" 0 ∅
  engines := [⟨"a", .released, 1⟩]
  calls := [⟨"a", false, .handedOut 0⟩, ⟨"a", false, .unregistering 0⟩, ⟨"a", false, .returning 0⟩]
  shutdowns := []

theorem released_engine_is_handed_out :
    machine.Runs (fun _ _ => True) initial staleRead ∧ ¬ HandsOutLive staleRead := by
  have played : machine.play (fun _ _ => true) initial readsStale = some staleRead := rfl
  refine ⟨Machine.runs_of_play (fun _ _ _ => trivial) played, fun live => ?_⟩
  obtain ⟨handle, here, loaded⟩ := live ⟨"a", false, .returning 0⟩ (by simp [staleRead]) 0 rfl
  cases here
  cases loaded

/-- After the failures "a" is unloaded, and loaded again by the last call. -/
def loadsAfresh : List Event :=
  failsOnce ++ .unloadModel "a" :: List.replicate 5 (.advance 3 true) ++
    .ensureModel "a" false :: List.replicate 8 (.advance 4 true)

def loadedAfresh : State where
  isShuttingDown := false
  registry := AList.insert "a" 2 ∅
  engines := [⟨"a", .failed, 1⟩, ⟨"a", .released, 2⟩, ⟨"a", .loaded, 0⟩]
  calls := [⟨"a", false, .raised⟩, ⟨"a", false, .handedOut 1⟩, ⟨"a", false, .unloaded true⟩,
    ⟨"a", false, .unloaded false⟩, ⟨"a", false, .returning 2⟩]
  shutdowns := []

theorem handed_out_engines_are_live_after_failures : HandsOutLive loadedAfresh := by
  have played : machine.play State.apart initial loadsAfresh = some loadedAfresh := rfl
  exact handed_out_engines_are_live loadedAfresh
    (Machine.runs_of_play (fun _ _ admitted => admitted) played)

/-- Nothing is registered once a `shutdown` has returned. -/
def ShutsDown (state : State) : Prop :=
  .returned ∈ state.shutdowns → ∀ modelId, state.registry.lookup modelId = none

/-- The registered model is still to be unloaded by a call at this place. -/
def Phase.unloads : Phase → Bool
  | .unloadAwaiting | .looking | .unloading _ | .unregistering _ => true
  | _ => false

/-- A `shutdown` is going to unload the model if it is registered. -/
def State.reaches (state : State) (modelId : String) : Shutdown → Bool
  | .flagging | .stopping | .snapshotting => true
  | .unloadEach rest => rest.contains modelId
  | .inside call rest => rest.contains modelId || state.calls[call]?.any fun inner =>
      inner.modelId == modelId && inner.phase.unloads
  | .returned => false

/-- The engines unload. -/
def State.unloadSucceeds (state : State) : Event → Bool
  | .advance place succeeds => state.calls[place]?.all fun call =>
      match call.phase with
      | .unloading _ => succeeds
      | _ => true
  | _ => true

/-- A model is registered only when every `shutdown` is still going to unload it. -/
def State.registersInTime (state : State) : Event → Bool
  | .advance place _ => state.calls[place]?.all fun call =>
      match call.phase with
      | .registering _ => state.shutdowns.all (state.reaches call.modelId)
      | _ => true
  | _ => true

section ShutsDown

variable {state after : State} {event : Event} {place : Nat} {call : Call} {phase : Phase}
  {effect : Effect} {succeeds : Bool} {modelId : String} {shutdown : Shutdown}

/-- Every registered model is still going to be unloaded by every `shutdown`. -/
def Reached (state : State) : Prop :=
  ∀ shutdown ∈ state.shutdowns, ∀ modelId, (state.registry.lookup modelId).isSome = true →
    state.reaches modelId shutdown = true

theorem lookup_acted (acted : Acted state call succeeds phase effect)
    (listed : ((state.perform call.modelId effect).registry.lookup modelId).isSome = true) :
    (state.registry.lookup modelId).isSome = true ∨
      (modelId = call.modelId ∧ ∃ engine, call.phase = .registering engine) := by
  cases acted with
  | passed | created | loaded | failed | cleaned | released | kept => exact .inl listed
  | registered engine stands =>
      by_cases own : modelId = call.modelId
      · exact .inr ⟨own, engine, stands⟩
      · rw [State.perform, AList.lookup_insert_ne own] at listed
        exact .inl listed
  | unregistered engine stands =>
      by_cases own : modelId = call.modelId
      · subst own
        simp [State.perform] at listed
      · rw [State.perform, AList.lookup_erase_ne own] at listed
        exact .inl listed

/-- A call that unloads goes on until its model is not registered. -/
theorem unloads_next (moved : state.next call succeeds = some (phase, effect))
    (unloads : call.phase.unloads = true)
    (works : ∀ engine, call.phase = .unloading engine → succeeds = true) :
    phase.unloads = true ∨
      (state.perform call.modelId effect).registry.lookup call.modelId = none := by
  unfold State.next at moved
  cases stands : call.phase with
  | unloadAwaiting =>
      simp only [stands] at moved
      cases free : state.locked call.modelId with
      | true => simp [free] at moved
      | false =>
          simp only [free, Bool.false_eq_true, ↓reduceIte, Option.some.injEq,
            Prod.mk.injEq] at moved
          exact .inl (moved.1 ▸ rfl)
  | looking =>
      simp only [stands] at moved
      cases registered : state.registry.lookup call.modelId with
      | none =>
          rw [registered] at moved
          cases moved
          exact .inr registered
      | some engine =>
          rw [registered] at moved
          cases moved
          exact .inl rfl
  | unloading engine =>
      obtain rfl := works engine stands
      simp only [stands] at moved
      cases moved
      exact .inl rfl
  | unregistering engine =>
      simp only [stands] at moved
      cases moved
      exact .inr (AList.lookup_erase call.modelId state.registry)
  | entering | peeking | awaiting | rechecking | connecting | loading | cleaning | registering
  | leaving | returning | unloadLeaving | unloaded | handedOut | raised =>
      rw [stands] at unloads
      cases unloads

theorem reaches_of_calls (reached : state.reaches modelId shutdown = true)
    (calls : ∀ (index : Nat) (inner : Call), state.calls[index]? = some inner →
      inner.modelId = modelId → inner.phase.unloads = true →
      ∃ later, after.calls[index]? = some later ∧ later.modelId = modelId ∧
        later.phase.unloads = true) :
    after.reaches modelId shutdown = true := by
  cases shutdown with
  | inside index rest =>
      simp only [State.reaches, Bool.or_eq_true] at reached ⊢
      rcases reached with ahead | unloading
      · exact .inl ahead
      · simp only [Option.any_eq_true, Bool.and_eq_true, beq_iff_eq] at unloading ⊢
        obtain ⟨inner, here, own, unloads⟩ := unloading
        exact .inr (calls index inner here own unloads)
  | flagging | stopping | snapshotting | unloadEach | returned => exact reached

theorem reaches_entered (reached : state.reaches modelId shutdown = true) (call : Call) :
    (state.enter call).reaches modelId shutdown = true := by
  refine reaches_of_calls reached fun index inner here own unloads => ⟨inner, ?_, own, unloads⟩
  exact (List.getElem?_append_left (List.getElem?_eq_some_iff.mp here).1).trans here

theorem Reached.acted (reached : Reached state) (here : state.calls[place]? = some call)
    (moved : state.next call succeeds = some (phase, effect))
    (works : state.unloadSucceeds (.advance place succeeds) = true)
    (inTime : state.registersInTime (.advance place succeeds) = true) :
    Reached ((state.perform call.modelId effect).setPhase place phase) := by
  simp only [State.unloadSucceeds, here, Option.all_some] at works
  simp only [State.registersInTime, here, Option.all_some] at inTime
  intro shutdown member modelId listed
  have shutdowns : (state.perform call.modelId effect).shutdowns = state.shutdowns := by
    cases effect <;> rfl
  have before : shutdown ∈ state.shutdowns := shutdowns ▸ member
  have reaches : state.reaches modelId shutdown = true := by
    rcases lookup_acted (acted_of_next moved) listed with listed | ⟨rfl, engine, stands⟩
    · exact reached shutdown before modelId listed
    · simp only [stands, List.all_eq_true] at inTime
      exact inTime shutdown before
  refine reaches_of_calls reaches fun index inner there own unloads => ?_
  by_cases same : index = place
  · subst same
    cases here.symm.trans there
    have succeeds (engine : Nat) (stands : call.phase = .unloading engine) : succeeds = true := by
      simpa only [stands] using works
    rcases unloads_next moved unloads succeeds with still | gone
    · refine ⟨{ call with phase }, ?_, own, still⟩
      simp [State.setPhase, perform_calls, here]
    · subst own
      rw [State.setPhase, gone] at listed
      cases listed
  · refine ⟨inner, ?_, own, unloads⟩
    simp [State.setPhase, perform_calls, Ne.symm same, there]

theorem Reached.setShutdown (reached : Reached state) (place : Nat) (changed : Shutdown)
    (reaches : ∀ modelId, (state.registry.lookup modelId).isSome = true →
      state.reaches modelId changed = true) : Reached (state.setShutdown place changed) := by
  intro shutdown member modelId listed
  have now : state.reaches modelId shutdown = true := by
    rcases List.mem_or_eq_of_mem_set member with before | rfl
    · exact reached shutdown before modelId listed
    · exact reaches modelId listed
  exact reaches_of_calls now fun index inner here own unloads => ⟨inner, here, own, unloads⟩

theorem Reached.enter (reached : Reached state) (call : Call) : Reached (state.enter call) :=
  fun shutdown member modelId listed =>
    reaches_entered (reached shutdown member modelId listed) call

theorem Reached.wound (reached : Reached state) (wound : Wound state place after) :
    Reached after := by
  cases wound with
  | flagged here =>
      exact reached.setShutdown place .stopping fun _ _ => rfl
  | stopped here => exact reached.setShutdown place .snapshotting fun _ _ => rfl
  | snapshotted here =>
      refine reached.setShutdown place _ fun modelId listed => ?_
      simpa [State.reaches, List.mem_insertionSort, AList.mem_keys] using AList.lookup_isSome.mp listed
  | returned here =>
      refine reached.setShutdown place _ fun modelId listed => ?_
      have ahead := reached _ (List.mem_of_getElem? here) modelId listed
      simp [State.reaches] at ahead
  | called next rest here =>
      refine (reached.enter _).setShutdown place _ fun modelId listed => ?_
      have ahead := reached _ (List.mem_of_getElem? here) modelId listed
      simp only [State.reaches, List.contains_cons, Bool.or_eq_true, beq_iff_eq] at ahead ⊢
      rcases ahead with rfl | later
      · exact .inr (by simp [State.enter, Phase.unloads])
      · exact .inl later
  | finished index rest inner here found isOver =>
      refine reached.setShutdown place _ fun modelId listed => ?_
      have ahead := reached _ (List.mem_of_getElem? here) modelId listed
      have finished : inner.phase.unloads = false := by
        cases stands : inner.phase <;> simp_all [Phase.isOver, Phase.unloads]
      simpa [State.reaches, found, finished] using ahead

theorem Reached.stepped (reached : Reached state) (stepped : Stepped state event after)
    (works : state.unloadSucceeds event = true) (inTime : state.registersInTime event = true) :
    Reached after := by
  cases stepped with
  | ensures modelId placeholder => exact reached.enter _
  | unloads modelId => exact reached.enter _
  | shuts =>
      intro shutdown member modelId listed
      have now : state.reaches modelId shutdown = true := by
        rcases List.mem_append.mp member with before | last
        · exact reached shutdown before modelId listed
        · rw [List.mem_singleton.mp last]
          rfl
      exact reaches_of_calls now fun index inner here own unloads => ⟨inner, here, own, unloads⟩
  | advanced place succeeds call phase effect here moved =>
      exact reached.acted here moved works inTime
  | wound place after wound => exact reached.wound wound

end ShutsDown

/-- With engines that unload, and no model registered behind a `shutdown`, nothing is left
registered when a `shutdown` has returned, nor later. -/
theorem shutdown_releases_every_model (state : State)
    (runs : machine.Runs (fun state event => state.unloadSucceeds event = true ∧
      state.registersInTime event = true) initial state) : ShutsDown state := by
  have reached : Reached state := by
    refine runs.invariant Reached (fun _ _ _ kept allowed stepped =>
      kept.stepped (stepped_of_step stepped) allowed.1 allowed.2) ?_
    intro shutdown member
    cases member
  intro returned modelId
  cases listed : state.registry.lookup modelId with
  | none => rfl
  | some engine =>
      have reaches := reached .returned returned modelId (by simp [listed])
      cases reaches

/-- A load is under way when `shutdown` takes its snapshot, and registers afterwards. -/
def registersLate : List Event :=
  [.ensureModel "a" false, .advance 0 true, .advance 0 true, .advance 0 true, .advance 0 true,
    .advance 0 true, .shutdown, .wind 0, .wind 0, .wind 0, .wind 0, .advance 0 true,
    .advance 0 true]

def registeredLate : State where
  isShuttingDown := true
  registry := AList.insert "a" 0 ∅
  engines := [⟨"a", .loaded, 0⟩]
  calls := [⟨"a", false, .leaving (some 0)⟩]
  shutdowns := [.returned]

theorem shutdown_leaves_a_model :
    machine.Runs (fun state event => state.unloadSucceeds event = true) initial registeredLate ∧
      ¬ ShutsDown registeredLate := by
  have played : machine.play State.unloadSucceeds initial registersLate = some registeredLate := rfl
  refine ⟨Machine.runs_of_play (fun _ _ admitted => admitted) played, fun released => ?_⟩
  have absent := released (by simp [registeredLate]) "a"
  cases absent

/-- The model is loaded, and `shutdown` unloads it. -/
def unloadsOne : List Event :=
  [.ensureModel "a" false, .advance 0 true, .advance 0 true, .advance 0 true, .advance 0 true,
    .advance 0 true, .advance 0 true, .advance 0 true, .advance 0 true, .advance 0 true,
    .shutdown, .wind 0, .wind 0, .wind 0, .wind 0, .advance 1 true, .advance 1 true,
    .advance 1 true, .advance 1 true, .advance 1 true, .wind 0, .wind 0]

def unloadedOne : State where
  isShuttingDown := true
  registry := ∅
  engines := [⟨"a", .released, 1⟩]
  calls := [⟨"a", false, .handedOut 0⟩, ⟨"a", false, .unloaded false⟩]
  shutdowns := [.returned]

theorem shutdown_releases_every_model_loaded : ShutsDown unloadedOne := by
  have played : machine.play (fun state event => state.unloadSucceeds event &&
      state.registersInTime event) initial unloadsOne = some unloadedOne := rfl
  refine shutdown_releases_every_model unloadedOne
    (Machine.runs_of_play (fun _ _ admitted => ?_) played)
  exact Bool.and_eq_true_iff.mp admitted

end CyreneReactor.Runtime.Residency
