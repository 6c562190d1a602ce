import Mathlib.Logic.Relation

namespace Interaction

/-! Machines whose every step is one event.

An event names all that is left open in a step: who moves, and what the world
answers.  A run is restricted by what is allowed of an event in the state it
happens in, so a condition on runs is a condition on their steps.
-/

structure Machine (State Event : Type) where
  step : State → Event → Option State

namespace Machine

variable {State Event : Type} {machine : Machine State Event}
  {allowed weaker : State → Event → Prop} {state next last : State}

/-- Any number of allowed steps. -/
def Runs (machine : Machine State Event) (allowed : State → Event → Prop) :
    State → State → Prop :=
  Relation.ReflTransGen fun state next =>
    ∃ event, allowed state event ∧ machine.step state event = some next

theorem Runs.trans (first : machine.Runs allowed state next)
    (second : machine.Runs allowed next last) : machine.Runs allowed state last :=
  Relation.ReflTransGen.trans first second

/-- What every allowed step preserves holds along every run. -/
theorem Runs.invariant (runs : machine.Runs allowed state next) (holds : State → Prop)
    (preserved : ∀ state event next, holds state → allowed state event →
      machine.step state event = some next → holds next)
    (initially : holds state) : holds next := by
  induction runs with
  | refl => exact initially
  | tail _ step ih =>
      obtain ⟨event, admitted, stepped⟩ := step
      exact preserved _ event _ ih admitted stepped

theorem Runs.mono (runs : machine.Runs allowed state next)
    (implied : ∀ state event, allowed state event → weaker state event) :
    machine.Runs weaker state next := by
  induction runs with
  | refl => exact .refl
  | tail _ step ih =>
      obtain ⟨event, admitted, stepped⟩ := step
      exact Relation.ReflTransGen.tail ih ⟨event, implied _ _ admitted, stepped⟩

/-- A bound that some allowed step lowers, until the end is reached. -/
theorem reaches (holds : Nat → State → Prop) {done : State → Prop}
    (advances : ∀ bound state, holds bound state → done state ∨ ∃ event next smaller,
      smaller < bound ∧ allowed state event ∧ machine.step state event = some next ∧
        holds smaller next)
    {bound : Nat} (holding : holds bound state) :
    ∃ last, machine.Runs allowed state last ∧ done last := by
  induction bound using Nat.strongRecOn generalizing state with
  | ind bound ih =>
      rcases advances bound state holding with ended |
        ⟨event, next, smaller, less, admitted, stepped, kept⟩
      · exact ⟨state, .refl, ended⟩
      · obtain ⟨last, runs, ended⟩ := ih smaller less kept
        exact ⟨last, Relation.ReflTransGen.head ⟨event, admitted, stepped⟩ runs, ended⟩

/-- The events one after the other, as long as each is allowed. -/
def play (machine : Machine State Event) (allows : State → Event → Bool) :
    State → List Event → Option State
  | state, [] => some state
  | state, event :: rest =>
      if allows state event then
        match machine.step state event with
        | some next => machine.play allows next rest
        | none => none
      else none

theorem play_cons {allows : State → Event → Bool} {event : Event} {rest : List Event}
    (admitted : allows state event = true) (stepped : machine.step state event = some next) :
    machine.play allows state (event :: rest) = machine.play allows next rest := by
  simp only [play, admitted, stepped, ↓reduceIte]

theorem runs_of_play {allows : State → Event → Bool} {events : List Event}
    (admits : ∀ state event, allows state event = true → allowed state event)
    (played : machine.play allows state events = some last) :
    machine.Runs allowed state last := by
  induction events generalizing state with
  | nil =>
      cases played
      exact .refl
  | cons event rest ih =>
      simp only [play] at played
      split at played
      · rename_i admitted
        cases stepped : machine.step state event with
        | none =>
            rw [stepped] at played
            cases played
        | some next =>
            rw [stepped] at played
            exact Relation.ReflTransGen.head ⟨event, admits _ _ admitted, stepped⟩ (ih played)
      · cases played

end Machine

end Interaction
