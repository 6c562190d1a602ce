import CyreneReactor.Data.Counting
import CyreneReactor.Runtime.Residency

namespace CyreneReactor.Runtime.Residency

open Interaction

/-! What the registry and the engines of one model have to do with each other.

`Books` relates the entry of a model and its engine that is in memory, `Agrees` says
what they are while a call holds the lock of the model.  Every step of a call keeps
both, for its own model and for every other one.
-/

/-- Loaded and not released, or being loaded. -/
def EngineStatus.resident : EngineStatus → Bool
  | .loading | .loaded => true
  | .failed | .released => false

/-- The entry of a model, and its engine in memory. -/
structure Books (state : State) (modelId : String) (registered : Option Nat)
    (live : Option (Nat × EngineStatus)) : Prop where
  lookup : state.registry.lookup modelId = registered
  known : ∀ engine, registered = some engine → ∃ handle, state.engines[engine]? = some handle ∧
    handle.modelId = modelId ∧ (handle.status = .loaded ∨ handle.status = .released)
  only : ∀ (engine : Nat) (handle : Engine), state.engines[engine]? = some handle →
    handle.modelId = modelId → handle.status.resident = true → live = some (engine, handle.status)
  present : ∀ engine status, live = some (engine, status) → status.resident = true ∧
    ∃ handle, state.engines[engine]? = some handle ∧ handle.modelId = modelId ∧
      handle.status = status

/-- The registered engine is the one in memory. -/
def Settled (registered : Option Nat) (live : Option (Nat × EngineStatus)) : Prop :=
  live = registered.map fun engine => (engine, .loaded)

/-- What a call inside the block of the lock may rely on. -/
def Agrees (state : State) (modelId : String) (registered : Option Nat)
    (live : Option (Nat × EngineStatus)) : Phase → Prop
  | .connecting => registered = none ∧ live = none
  | .loading engine => registered = none ∧ live = some (engine, .loading) ∧
      state.engines[engine]? = some ⟨modelId, .loading, 0⟩
  | .cleaning engine => registered = none ∧ live = none ∧
      state.engines[engine]? = some ⟨modelId, .failed, 0⟩
  | .registering engine => registered = none ∧ live = some (engine, .loaded)
  | .leaving none => registered = none ∧ live = none
  | .leaving (some engine) | .unloading engine => registered = some engine ∧
      live = some (engine, .loaded)
  | .unregistering engine => registered = some engine ∧ live = none
  | _ => Settled registered live

section Books

variable {state : State} {modelId other : String} {registered : Option Nat}
  {live : Option (Nat × EngineStatus)} {place : Nat} {handle : Engine} {change : Engine → Engine}

theorem getElem?_setEngine (here : state.engines[place]? = some handle) (index : Nat) :
    (state.setEngine place change).engines[index]? =
      if place = index then some (change handle) else state.engines[index]? := by
  simp only [State.setEngine, List.getElem?_modify]
  split
  · rename_i same
    subst same
    simp [here]
  · simp

/-- An engine of the model changes, and it is the only one in memory, if there is one. -/
theorem Books.setEngine (books : Books state modelId registered live)
    (here : state.engines[place]? = some handle) (own : (change handle).modelId = modelId)
    (alone : ∀ engine status, live = some (engine, status) → engine = place)
    (entry : registered = some place →
      (change handle).status = .loaded ∨ (change handle).status = .released) :
    Books (state.setEngine place change) modelId registered
      (if (change handle).status.resident then some (place, (change handle).status) else none) where
  lookup := books.lookup
  known := fun engine found => by
    rw [getElem?_setEngine here]
    split
    · rename_i same
      exact ⟨_, rfl, own, entry (same ▸ found)⟩
    · exact books.known engine found
  only := fun engine found there belongs resident => by
    rw [getElem?_setEngine here] at there
    split at there
    · rename_i same
      cases there
      rw [if_pos resident, same]
    · rename_i different
      exact absurd (alone engine _ (books.only engine found there belongs resident)).symm different
  present := fun engine status found => by
    split at found
    · rename_i resident
      cases found
      exact ⟨resident, change handle, by rw [getElem?_setEngine here, if_pos rfl], own, rfl⟩
    · cases found

theorem Books.create (books : Books state modelId registered none) :
    Books (state.perform modelId .create) modelId registered
      (some (state.engines.length, .loading)) where
  lookup := books.lookup
  known := fun engine found => by
    obtain ⟨known, there, belongs, status⟩ := books.known engine found
    refine ⟨known, ?_, belongs, status⟩
    exact (List.getElem?_append_left (List.getElem?_eq_some_iff.mp there).1).trans there
  only := fun engine found there belongs resident => by
    rcases Counting.getElem?_append_singleton_cases there with before | ⟨rfl, rfl⟩
    · cases books.only engine found before belongs resident
    · rfl
  present := fun engine status found => by
    cases found
    exact ⟨rfl, ⟨modelId, .loading, 0⟩, List.getElem?_concat_length, rfl, rfl⟩

theorem Books.register (books : Books state modelId registered (some (place, .loaded))) :
    Books (state.perform modelId (.register place)) modelId (some place)
      (some (place, .loaded)) where
  lookup := AList.lookup_insert state.registry
  known := fun engine found => by
    cases found
    obtain ⟨_, known, there, belongs, status⟩ := books.present place .loaded rfl
    exact ⟨known, there, belongs, .inl status⟩
  only := books.only
  present := books.present

theorem Books.unregister (books : Books state modelId registered live) :
    Books (state.perform modelId .unregister) modelId none live :=
  ⟨AList.lookup_erase modelId state.registry, (fun _ absent => by cases absent), books.only,
    books.present⟩

end Books

/-- Nothing changes for a model. -/
structure Same (modelId : String) (state after : State) : Prop where
  lookup : after.registry.lookup modelId = state.registry.lookup modelId
  engines : ∀ (engine : Nat) (handle : Engine), handle.modelId = modelId →
    (after.engines[engine]? = some handle ↔ state.engines[engine]? = some handle)

section Same

variable {state after : State} {modelId other : String} {registered : Option Nat}
  {live : Option (Nat × EngineStatus)} {place : Nat} {handle : Engine}

theorem Books.of_same (books : Books state modelId registered live)
    (same : Same modelId state after) : Books after modelId registered live where
  lookup := same.lookup.trans books.lookup
  known := fun engine found => by
    obtain ⟨handle, here, own, status⟩ := books.known engine found
    exact ⟨handle, (same.engines engine handle own).mpr here, own, status⟩
  only := fun engine handle here own =>
    books.only engine handle ((same.engines engine handle own).mp here) own
  present := fun engine status found => by
    obtain ⟨resident, handle, here, own, known⟩ := books.present engine status found
    exact ⟨resident, handle, (same.engines engine handle own).mpr here, own, known⟩

theorem agrees_of_same {phase : Phase} (agrees : Agrees state modelId registered live phase)
    (same : Same modelId state after) : Agrees after modelId registered live phase := by
  cases phase with
  | loading engine =>
      exact ⟨agrees.1, agrees.2.1, (same.engines engine _ rfl).mpr agrees.2.2⟩
  | cleaning engine =>
      exact ⟨agrees.1, agrees.2.1, (same.engines engine _ rfl).mpr agrees.2.2⟩
  | leaving engine => cases engine <;> exact agrees
  | _ => exact agrees

theorem same_setEngine (here : state.engines[place]? = some handle) (foreign : handle.modelId ≠ other)
    {change : Engine → Engine} (kept : (change handle).modelId = handle.modelId) :
    Same other state (state.setEngine place change) where
  lookup := rfl
  engines := fun engine found own => by
    rw [getElem?_setEngine here]
    split
    · rename_i same
      subst same
      rw [here, Option.some.injEq, Option.some.injEq]
      constructor
      · rintro rfl
        exact absurd (kept.symm.trans own) foreign
      · rintro rfl
        exact absurd own foreign
    · exact Iff.rfl

theorem same_create (different : modelId ≠ other) :
    Same other state (state.perform modelId .create) where
  lookup := rfl
  engines := fun engine found own => by
    constructor
    · intro there
      rcases Counting.getElem?_append_singleton_cases there with before | ⟨_, rfl⟩
      · exact before
      · exact absurd own different
    · intro there
      exact (List.getElem?_append_left (List.getElem?_eq_some_iff.mp there).1).trans there

end Same

section Step

variable {state : State} {call : Call} {succeeds : Bool} {phase : Phase} {effect : Effect}
  {registered : Option Nat} {live : Option (Nat × EngineStatus)}

/-- The model of a call after its step. -/
def Own (state : State) (call : Call) (phase : Phase) (effect : Effect) : Prop :=
  ∃ registered live, Books (state.perform call.modelId effect) call.modelId registered live ∧
    (phase.critical = true →
      Agrees (state.perform call.modelId effect) call.modelId registered live phase) ∧
    (phase.critical = false → Settled registered live)

theorem own_of_critical (books : Books state call.modelId registered live)
    (agrees : Agrees state call.modelId registered live call.phase)
    (inside : call.phase.critical = true)
    (moved : state.next call succeeds = some (phase, effect)) : Own state call phase effect := by
  unfold State.next at moved
  rw [books.lookup] at moved
  cases stands : call.phase with
  | entering | peeking | awaiting | returning | unloadAwaiting | unloaded | handedOut | raised =>
      rw [stands] at inside
      cases inside
  | rechecking =>
      simp only [stands] at moved agrees
      cases registered with
      | none =>
          cases moved
          exact ⟨none, live, books, fun _ => ⟨rfl, agrees⟩, by simp [Phase.critical]⟩
      | some engine =>
          cases moved
          exact ⟨some engine, live, books, fun _ => ⟨rfl, agrees⟩, by simp [Phase.critical]⟩
  | connecting =>
      simp only [stands] at moved agrees
      obtain ⟨rfl, rfl⟩ := agrees
      cases succeeds with
      | true =>
          cases moved
          exact ⟨none, _, books.create, fun _ => ⟨rfl, rfl, List.getElem?_concat_length⟩,
            by simp [Phase.critical]⟩
      | false =>
          cases moved
          exact ⟨none, none, books, fun _ => ⟨rfl, rfl⟩, by simp [Phase.critical]⟩
  | loading engine =>
      simp only [stands] at moved agrees
      obtain ⟨rfl, rfl, here⟩ := agrees
      have alone (other : Nat) (status : EngineStatus)
          (same : some (engine, EngineStatus.loading) = some (other, status)) : other = engine := by
        cases same
        rfl
      cases succeeds with
      | true =>
          cases moved
          exact ⟨none, _, books.setEngine here rfl alone (by simp), fun _ => ⟨rfl, rfl⟩,
            by simp [Phase.critical]⟩
      | false =>
          cases moved
          refine ⟨none, _, books.setEngine here rfl alone (by simp), fun _ => ⟨rfl, rfl, ?_⟩,
            by simp [Phase.critical]⟩
          exact (getElem?_setEngine here engine).trans (if_pos rfl)
  | cleaning engine =>
      simp only [stands] at moved agrees
      obtain ⟨rfl, rfl, here⟩ := agrees
      cases moved
      exact ⟨none, _, books.setEngine here rfl (by simp) (by simp), fun _ => ⟨rfl, rfl⟩,
        by simp [Phase.critical]⟩
  | registering engine =>
      simp only [stands] at moved agrees
      obtain ⟨rfl, rfl⟩ := agrees
      cases moved
      exact ⟨some engine, _, books.register, fun _ => ⟨rfl, rfl⟩, by simp [Phase.critical]⟩
  | leaving engine =>
      simp only [stands] at moved agrees
      cases engine with
      | none =>
          cases moved
          obtain ⟨rfl, rfl⟩ := agrees
          exact ⟨_, _, books, by simp [Phase.critical], fun _ => rfl⟩
      | some engine =>
          cases moved
          obtain ⟨rfl, rfl⟩ := agrees
          exact ⟨_, _, books, by simp [Phase.critical], fun _ => rfl⟩
  | looking =>
      simp only [stands] at moved agrees
      cases registered with
      | none =>
          cases moved
          exact ⟨none, live, books, fun _ => agrees, by simp [Phase.critical]⟩
      | some engine =>
          cases moved
          exact ⟨some engine, live, books, fun _ => ⟨rfl, agrees⟩, by simp [Phase.critical]⟩
  | unloading engine =>
      simp only [stands] at moved agrees
      obtain ⟨rfl, rfl⟩ := agrees
      obtain ⟨_, handle, here, belongs, loaded⟩ := books.present engine .loaded rfl
      have alone (other : Nat) (status : EngineStatus)
          (same : some (engine, EngineStatus.loaded) = some (other, status)) : other = engine := by
        cases same
        rfl
      cases succeeds with
      | true =>
          cases moved
          exact ⟨some engine, _, books.setEngine here belongs alone (by simp),
            fun _ => ⟨rfl, rfl⟩, by simp [Phase.critical]⟩
      | false =>
          cases moved
          exact ⟨some engine, _, books.setEngine here belongs alone (by simp), fun _ => rfl,
            by simp [Phase.critical]⟩
  | unregistering engine =>
      simp only [stands] at moved agrees
      obtain ⟨rfl, rfl⟩ := agrees
      cases moved
      exact ⟨none, none, books.unregister, fun _ => rfl, by simp [Phase.critical]⟩
  | unloadLeaving raised =>
      simp only [stands] at moved agrees
      cases moved
      exact ⟨registered, live, books, by simp [Phase.critical], fun _ => agrees⟩

/-- The steps that touch an engine or the registry. -/
inductive Acted (state : State) (call : Call) (succeeds : Bool) : Phase → Effect → Prop
  | passed (phase : Phase) (moved : state.next call succeeds = some (phase, .nothing))
      (idle : ∀ engine, call.phase ≠ .cleaning engine) : Acted state call succeeds phase .nothing
  | created (stands : call.phase = .connecting) :
      Acted state call succeeds (.loading state.engines.length) .create
  | loaded (engine : Nat) (stands : call.phase = .loading engine) :
      Acted state call succeeds (.registering engine) (.mark engine .loaded)
  | failed (engine : Nat) (stands : call.phase = .loading engine) :
      Acted state call succeeds (.cleaning engine) (.mark engine .failed)
  | cleaned (engine : Nat) (stands : call.phase = .cleaning engine) :
      Acted state call succeeds (.leaving none) (.unload engine .failed)
  | registered (engine : Nat) (stands : call.phase = .registering engine) :
      Acted state call succeeds (.leaving (some engine)) (.register engine)
  | released (engine : Nat) (stands : call.phase = .unloading engine) (works : succeeds = true) :
      Acted state call succeeds (.unregistering engine) (.unload engine .released)
  | kept (engine : Nat) (stands : call.phase = .unloading engine) (fails : succeeds = false) :
      Acted state call succeeds (.unloadLeaving true) (.unload engine .loaded)
  | unregistered (engine : Nat) (stands : call.phase = .unregistering engine) :
      Acted state call succeeds (.unloadLeaving false) .unregister

theorem acted_of_next (moved : state.next call succeeds = some (phase, effect)) :
    Acted state call succeeds phase effect := by
  have full := moved
  unfold State.next at moved
  cases stands : call.phase with
  | connecting =>
      simp only [stands] at moved
      split at moved
      · cases moved
        exact .created stands
      · cases moved
        exact .passed _ full (by simp [stands])
  | loading engine =>
      simp only [stands] at moved
      split at moved
      · cases moved
        exact .loaded engine stands
      · cases moved
        exact .failed engine stands
  | cleaning engine =>
      simp only [stands] at moved
      cases moved
      exact .cleaned engine stands
  | registering engine =>
      simp only [stands] at moved
      cases moved
      exact .registered engine stands
  | unloading engine =>
      simp only [stands] at moved
      cases succeeds with
      | true =>
          cases moved
          exact .released engine stands rfl
      | false =>
          cases moved
          exact .kept engine stands rfl
  | unregistering engine =>
      simp only [stands] at moved
      cases moved
      exact .unregistered engine stands
  | entering | returning | unloadLeaving =>
      simp only [stands] at moved
      cases moved
      exact .passed _ full (by simp [stands])
  | peeking | rechecking | looking =>
      simp only [stands] at moved
      split at moved <;> (cases moved; exact .passed _ full (by simp [stands]))
  | awaiting | unloadAwaiting =>
      simp only [stands] at moved
      split at moved
      · cases moved
      · cases moved
        exact .passed _ full (by simp [stands])
  | leaving engine =>
      cases engine <;> (simp only [stands] at moved; cases moved; exact .passed _ full (by simp [stands]))
  | handedOut | raised | unloaded => simp [stands] at moved

/-- A step of a call inside the block of its lock changes nothing for another model. -/
theorem same_of_critical (books : Books state call.modelId registered live)
    (agrees : Agrees state call.modelId registered live call.phase)
    (inside : call.phase.critical = true)
    (moved : state.next call succeeds = some (phase, effect)) {other : String}
    (different : call.modelId ≠ other) :
    Same other state (state.perform call.modelId effect) := by
  have unchanged : Same other state state := ⟨rfl, fun _ _ _ => Iff.rfl⟩
  unfold State.next at moved
  cases stands : call.phase with
  | entering | peeking | awaiting | returning | unloadAwaiting | unloaded | handedOut | raised =>
      rw [stands] at inside
      cases inside
  | rechecking | looking =>
      simp only [stands] at moved
      split at moved <;> (cases moved; exact unchanged)
  | leaving engine =>
      cases engine <;> (simp only [stands] at moved; cases moved; exact unchanged)
  | unloadLeaving raised =>
      simp only [stands] at moved
      cases moved
      exact unchanged
  | connecting =>
      simp only [stands] at moved
      split at moved
      · cases moved
        exact same_create different
      · cases moved
        exact unchanged
  | loading engine =>
      simp only [stands] at moved agrees
      split at moved <;> (cases moved; exact same_setEngine agrees.2.2 different rfl)
  | cleaning engine =>
      simp only [stands] at moved agrees
      cases moved
      exact same_setEngine agrees.2.2 different rfl
  | registering engine =>
      simp only [stands] at moved
      cases moved
      exact ⟨AList.lookup_insert_ne (Ne.symm different), fun _ _ _ => Iff.rfl⟩
  | unloading engine =>
      simp only [stands] at moved agrees
      obtain ⟨_, handle, here, own, _⟩ := books.present engine .loaded agrees.2
      have foreign : handle.modelId ≠ other := own ▸ different
      split at moved <;> (cases moved; exact same_setEngine here foreign rfl)
  | unregistering engine =>
      simp only [stands] at moved
      cases moved
      exact ⟨AList.lookup_erase_ne (Ne.symm different), fun _ _ _ => Iff.rfl⟩

/-- A call outside the block of its lock has no effect, and enters the block only when
no other call is inside. -/
theorem outside_step (outside : call.phase.critical = false)
    (moved : state.next call succeeds = some (phase, effect)) :
    effect = .nothing ∧ (phase.critical = true →
      (phase = .rechecking ∨ phase = .looking) ∧ state.locked call.modelId = false) := by
  unfold State.next at moved
  cases stands : call.phase with
  | rechecking | connecting | loading | cleaning | registering | leaving | looking | unloading
  | unregistering | unloadLeaving =>
      rw [stands] at outside
      cases outside
  | entering =>
      simp only [stands] at moved
      cases moved
      cases state.isShuttingDown <;> simp [Phase.critical]
  | peeking =>
      simp only [stands] at moved
      split at moved
      · cases moved
        simp [Phase.critical]
      · cases moved
        cases call.placeholder <;> simp [Phase.critical]
  | awaiting | unloadAwaiting =>
      simp only [stands] at moved
      split at moved
      · cases moved
      · cases moved
        exact ⟨rfl, fun _ => ⟨by simp, Bool.eq_false_iff.mpr ‹_›⟩⟩
  | returning engine =>
      simp only [stands] at moved
      cases moved
      simp [Phase.critical]
  | handedOut | raised | unloaded => simp [stands] at moved

end Step

/-- At most one call is inside the block of a lock, and what it relies on is so; with none
inside, the registry is right. -/
structure Consistent (state : State) : Prop where
  single : ∀ (first second : Nat) (left right : Call), state.calls[first]? = some left →
    state.calls[second]? = some right → left.modelId = right.modelId →
    left.phase.critical = true → right.phase.critical = true → first = second
  books : ∀ modelId, ∃ registered live, Books state modelId registered live ∧
    (∀ call ∈ state.calls, call.modelId = modelId → call.phase.critical = true →
      Agrees state modelId registered live call.phase) ∧
    (state.locked modelId = false → Settled registered live)

section Run

variable {state after : State} {place : Nat} {call : Call} {phase : Phase} {effect : Effect}
  {succeeds : Bool} {modelId : String}

theorem locked_eq_false : state.locked modelId = false ↔
    ∀ call ∈ state.calls, call.modelId = modelId → call.phase.critical = false := by
  simp only [State.locked, List.any_eq_false, Bool.and_eq_true, beq_iff_eq, not_and,
    Bool.not_eq_true]

theorem perform_calls : (state.perform modelId effect).calls = state.calls := by
  cases effect <;> rfl

/-- The calls after one of them moved on. -/
theorem getElem?_advanced (here : state.calls[place]? = some call) {other : Nat} {found : Call}
    (there : ((state.perform modelId effect).setPhase place phase).calls[other]? = some found) :
    (other = place ∧ found = { call with phase }) ∨
      (other ≠ place ∧ state.calls[other]? = some found) := by
  simp only [State.setPhase, perform_calls, List.getElem?_modify] at there
  split at there
  · rename_i same
    subst same
    rw [here] at there
    cases there
    exact .inl ⟨rfl, rfl⟩
  · rename_i different
    exact .inr ⟨Ne.symm different, by simpa using there⟩

theorem mem_advanced (here : state.calls[place]? = some call) :
    { call with phase } ∈ ((state.perform modelId effect).setPhase place phase).calls ∧
      ∀ (other : Nat) (found : Call), other ≠ place → state.calls[other]? = some found →
        found ∈ ((state.perform modelId effect).setPhase place phase).calls := by
  have stands (other : Nat) : ((state.perform modelId effect).setPhase place phase).calls[other]? =
      if place = other then some { call with phase } else state.calls[other]? := by
    simp only [State.setPhase, perform_calls, List.getElem?_modify]
    split
    · rename_i same
      subst same
      simp [here]
    · simp
  constructor
  · exact List.mem_of_getElem? ((stands place).trans (if_pos rfl))
  · intro other found different there
    exact List.mem_of_getElem? ((stands other).trans ((if_neg (Ne.symm different)).trans there))

theorem Consistent.advance (consistent : Consistent state)
    (here : state.calls[place]? = some call)
    (moved : state.next call succeeds = some (phase, effect)) :
    Consistent ((state.perform call.modelId effect).setPhase place phase) := by
  have alone (other : Nat) (found : Call) (different : other ≠ place)
      (there : state.calls[other]? = some found) (own : found.modelId = call.modelId)
      (inside : found.phase.critical = true) : phase.critical = false := by
    cases outside : call.phase.critical with
    | true =>
        exact absurd (consistent.single other place found call there here own inside outside)
          different
    | false =>
        cases entered : phase.critical with
        | false => rfl
        | true =>
            have free := locked_eq_false.mp ((outside_step outside moved).2 entered).2 found
              (List.mem_of_getElem? there) own
            rw [inside] at free
            cases free
  constructor
  · intro first second left right found there own inside also
    rcases getElem?_advanced here found with ⟨rfl, rfl⟩ | ⟨firstNe, before⟩
    · rcases getElem?_advanced here there with ⟨rfl, rfl⟩ | ⟨secondNe, later⟩
      · rfl
      · have free := alone second right secondNe later own.symm also
        rw [show phase.critical = true from inside] at free
        cases free
    · rcases getElem?_advanced here there with ⟨rfl, rfl⟩ | ⟨_, later⟩
      · have free := alone first left firstNe before own inside
        rw [show phase.critical = true from also] at free
        cases free
      · exact consistent.single first second left right before later own inside also
  · intro wanted
    obtain ⟨registered, live, books, agrees, settled⟩ := consistent.books wanted
    by_cases own : call.modelId = wanted
    · subst own
      cases inside : call.phase.critical with
      | true =>
          obtain ⟨entry, memory, kept, within, without⟩ := own_of_critical books
            (agrees call (List.mem_of_getElem? here) rfl inside) inside moved
          refine ⟨entry, memory, ⟨kept.lookup, kept.known, kept.only, kept.present⟩, ?_, ?_⟩
          · intro found member own entered
            obtain ⟨other, there⟩ := List.getElem?_of_mem member
            rcases getElem?_advanced here there with ⟨rfl, rfl⟩ | ⟨different, before⟩
            · exact within entered
            · exact absurd (consistent.single other place found call before here own entered inside)
                different
          · intro free
            exact without (locked_eq_false.mp free _ (mem_advanced here).1 rfl)
      | false =>
          obtain ⟨rfl, enters⟩ := outside_step inside moved
          refine ⟨registered, live, ⟨books.lookup, books.known, books.only, books.present⟩, ?_, ?_⟩
          · intro found member own entered
            obtain ⟨other, there⟩ := List.getElem?_of_mem member
            rcases getElem?_advanced here there with ⟨rfl, rfl⟩ | ⟨different, before⟩
            · obtain ⟨rfl | rfl, free⟩ := enters entered <;> exact settled free
            · exact agrees found (List.mem_of_getElem? before) own entered
          · intro free
            refine settled (locked_eq_false.mpr fun found member own => ?_)
            obtain ⟨other, there⟩ := List.getElem?_of_mem member
            by_cases same : other = place
            · subst same
              cases here.symm.trans there
              exact inside
            · exact locked_eq_false.mp free found ((mem_advanced here).2 other found same there) own
    · have same : Same wanted state (state.perform call.modelId effect) := by
        cases inside : call.phase.critical with
        | true =>
            obtain ⟨_, _, ownBooks, ownAgrees, _⟩ := consistent.books call.modelId
            exact same_of_critical ownBooks
              (ownAgrees call (List.mem_of_getElem? here) rfl inside) inside moved own
        | false =>
            rw [(outside_step inside moved).1]
            exact ⟨rfl, fun _ _ _ => Iff.rfl⟩
      have kept := books.of_same same
      refine ⟨registered, live, ⟨kept.lookup, kept.known, kept.only, kept.present⟩, ?_, ?_⟩
      · intro found member belongs entered
        obtain ⟨other, there⟩ := List.getElem?_of_mem member
        rcases getElem?_advanced here there with ⟨rfl, rfl⟩ | ⟨_, before⟩
        · exact absurd belongs own
        · have framed : Same wanted state ((state.perform call.modelId effect).setPhase place phase) :=
            ⟨same.lookup, same.engines⟩
          exact agrees_of_same (agrees found (List.mem_of_getElem? before) belongs entered) framed
      · intro free
        refine settled (locked_eq_false.mpr fun found member belongs => ?_)
        obtain ⟨other, there⟩ := List.getElem?_of_mem member
        have different : other ≠ place := fun same => by
          subst same
          cases here.symm.trans there
          exact own belongs
        exact locked_eq_false.mp free found ((mem_advanced here).2 other found different there)
          belongs

/-- A new call does not stand inside the block of its lock. -/
theorem Consistent.enter (consistent : Consistent state) (outside : call.phase.critical = false) :
    Consistent (state.enter call) where
  single := fun first second left right found there own inside also => by
    rcases Counting.getElem?_append_singleton_cases found with before | ⟨_, rfl⟩
    · rcases Counting.getElem?_append_singleton_cases there with later | ⟨_, rfl⟩
      · exact consistent.single first second left right before later own inside also
      · rw [outside] at also
        cases also
    · rw [outside] at inside
      cases inside
  books := fun modelId => by
    obtain ⟨registered, live, books, agrees, settled⟩ := consistent.books modelId
    have same : Same modelId state (state.enter call) := ⟨rfl, fun _ _ _ => Iff.rfl⟩
    refine ⟨registered, live, books.of_same same, ?_, ?_⟩
    · intro found member own inside
      rcases List.mem_append.mp member with before | last
      · exact agrees_of_same (agrees found before own inside) same
      · rw [List.mem_singleton.mp last, outside] at inside
        cases inside
    · intro free
      refine settled (locked_eq_false.mpr fun found member => ?_)
      exact locked_eq_false.mp free found (List.mem_append_left _ member)

/-- Neither the flag nor the calls of `shutdown` matter. -/
theorem Consistent.relabel (consistent : Consistent state) (flag : Bool)
    (shutdowns : List Shutdown) :
    Consistent { state with isShuttingDown := flag, shutdowns := shutdowns } where
  single := consistent.single
  books := fun modelId => by
    obtain ⟨registered, live, books, agrees, settled⟩ := consistent.books modelId
    have same : Same modelId state
        { state with isShuttingDown := flag, shutdowns := shutdowns } :=
      ⟨rfl, fun _ _ _ => Iff.rfl⟩
    exact ⟨registered, live, books.of_same same,
      fun found member own inside => agrees_of_same (agrees found member own inside) same, settled⟩

end Run

section Events

variable {state after : State} {event : Event} {place : Nat}

/-- What the next statement of a `shutdown` leaves behind. -/
inductive Wound (state : State) (place : Nat) : State → Prop
  | flagged (here : state.shutdowns[place]? = some .flagging) :
      Wound state place { state.setShutdown place .stopping with isShuttingDown := true }
  | stopped (here : state.shutdowns[place]? = some .stopping) :
      Wound state place (state.setShutdown place .snapshotting)
  | snapshotted (here : state.shutdowns[place]? = some .snapshotting) :
      Wound state place
        (state.setShutdown place (.unloadEach (state.registry.keys.insertionSort (· ≤ ·))))
  | returned (here : state.shutdowns[place]? = some (.unloadEach [])) :
      Wound state place (state.setShutdown place .returned)
  | called (modelId : String) (rest : List String)
      (here : state.shutdowns[place]? = some (.unloadEach (modelId :: rest))) :
      Wound state place ((state.enter ⟨modelId, false, .unloadAwaiting⟩).setShutdown place
        (.inside state.calls.length rest))
  | finished (call : Nat) (rest : List String) (inner : Call)
      (here : state.shutdowns[place]? = some (.inside call rest))
      (found : state.calls[call]? = some inner) (isOver : inner.phase.isOver = true) :
      Wound state place (state.setShutdown place (.unloadEach rest))

theorem wound_of_wind (moved : state.wind place = some after) : Wound state place after := by
  unfold State.wind at moved
  cases here : state.shutdowns[place]? with
  | none => simp [here] at moved
  | some shutdown =>
      rw [here] at moved
      cases shutdown with
      | flagging =>
          cases moved
          exact .flagged here
      | stopping =>
          cases moved
          exact .stopped here
      | snapshotting =>
          cases moved
          exact .snapshotted here
      | unloadEach rest =>
          cases rest with
          | nil =>
              cases moved
              exact .returned here
          | cons modelId rest =>
              cases moved
              exact .called modelId rest here
      | inside call rest =>
          cases found : state.calls[call]? with
          | none => simp [found] at moved
          | some inner =>
              cases isOver : inner.phase.isOver with
              | false => simp [found, isOver] at moved
              | true =>
                  simp only [found, isOver, ↓reduceIte, Option.some.injEq] at moved
                  subst moved
                  exact .finished call rest inner here found isOver
      | returned => cases moved

/-- What an event leaves behind. -/
inductive Stepped (state : State) : Event → State → Prop
  | ensures (modelId : String) (placeholder : Bool) :
      Stepped state (.ensureModel modelId placeholder)
        (state.enter ⟨modelId, placeholder, .entering⟩)
  | unloads (modelId : String) :
      Stepped state (.unloadModel modelId) (state.enter ⟨modelId, false, .unloadAwaiting⟩)
  | shuts : Stepped state .shutdown { state with shutdowns := state.shutdowns ++ [.flagging] }
  | advanced (place : Nat) (succeeds : Bool) (call : Call) (phase : Phase) (effect : Effect)
      (here : state.calls[place]? = some call)
      (moved : state.next call succeeds = some (phase, effect)) :
      Stepped state (.advance place succeeds)
        ((state.perform call.modelId effect).setPhase place phase)
  | wound (place : Nat) (after : State) (wound : Wound state place after) :
      Stepped state (.wind place) after

theorem stepped_of_step (stepped : machine.step state event = some after) :
    Stepped state event after := by
  cases event with
  | ensureModel modelId placeholder =>
      cases stepped
      exact .ensures modelId placeholder
  | unloadModel modelId =>
      cases stepped
      exact .unloads modelId
  | shutdown =>
      cases stepped
      exact .shuts
  | advance place succeeds =>
      simp only [machine, State.step, State.advance] at stepped
      cases here : state.calls[place]? with
      | none => simp [here] at stepped
      | some call =>
          cases moved : state.next call succeeds with
          | none => simp [here, moved] at stepped
          | some result =>
              simp only [here, moved, Option.map_some, Option.some.injEq] at stepped
              subst stepped
              exact .advanced place succeeds call result.1 result.2 here moved
  | wind place => exact .wound place after (wound_of_wind stepped)

theorem Consistent.stepped (consistent : Consistent state) (stepped : Stepped state event after) :
    Consistent after := by
  cases stepped with
  | ensures modelId placeholder => exact consistent.enter rfl
  | unloads modelId => exact consistent.enter rfl
  | shuts => exact consistent.relabel _ _
  | advanced place succeeds call phase effect here moved => exact consistent.advance here moved
  | wound place after wound =>
      cases wound with
      | called modelId rest here =>
          have entered : Consistent (state.enter ⟨modelId, false, .unloadAwaiting⟩) :=
            consistent.enter rfl
          exact entered.relabel _ _
      | flagged | stopped | snapshotted | returned | finished => exact consistent.relabel _ _

theorem consistent_initial : Consistent initial where
  single := by simp [initial]
  books := fun modelId =>
    ⟨none, none, ⟨rfl, by simp, by simp [initial], by simp⟩, by simp [initial], fun _ => rfl⟩

theorem consistent_of_runs {allowed : State → Event → Prop}
    (runs : machine.Runs allowed initial state) : Consistent state :=
  runs.invariant Consistent
    (fun _ _ _ consistent _ stepped => consistent.stepped (stepped_of_step stepped))
    consistent_initial

end Events

end CyreneReactor.Runtime.Residency
