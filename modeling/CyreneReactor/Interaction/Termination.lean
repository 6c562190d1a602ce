import CyreneReactor.Interaction.Machine
import Mathlib.Order.WellFounded

namespace Interaction

/-! Machines that come to rest: their allowed steps can go on for a while only. -/

namespace Machine

variable {State Event : Type} {machine : Machine State Event}
  {allowed : State → Event → Prop} {state : State}

/-- Every run of allowed steps ends. -/
def Terminates (machine : Machine State Event) (allowed : State → Event → Prop) : Prop :=
  WellFounded fun next state =>
    ∃ event, allowed state event ∧ machine.step state event = some next

/-- No allowed step is left. -/
def AtRest (machine : Machine State Event) (allowed : State → Event → Prop) (state : State) : Prop :=
  ∀ event, allowed state event → machine.step state event = none

/-- Each step lowers the first measure, or keeps it and lowers the second one. -/
theorem terminates_of_lowers (first second : State → Nat)
    (lowers : ∀ state event next, allowed state event → machine.step state event = some next →
      first next < first state ∨ first next = first state ∧ second next < second state) :
    machine.Terminates allowed := by
  have lexicographic : WellFounded (Prod.Lex (· < ·) (· < · : Nat → Nat → Prop)) :=
    (Nat.lt_wfRel.wf).prod_lex Nat.lt_wfRel.wf
  apply Subrelation.wf _ (InvImage.wf (fun state => (first state, second state)) lexicographic)
  intro next state step
  obtain ⟨event, admitted, stepped⟩ := step
  rcases lowers state event next admitted stepped with less | ⟨same, less⟩
  · exact Prod.Lex.left _ _ less
  · simp only [InvImage, same]
    exact Prod.Lex.right _ less

theorem Terminates.rests (terminates : machine.Terminates allowed) (state : State) :
    ∃ last, machine.Runs allowed state last ∧ machine.AtRest allowed last := by
  induction state using terminates.induction with
  | h state ih =>
      by_cases rest : machine.AtRest allowed state
      · exact ⟨state, .refl, rest⟩
      · obtain ⟨event, admitted, moves⟩ : ∃ event, allowed state event ∧
            machine.step state event ≠ none := by
          simpa only [AtRest, not_forall, exists_prop] using rest
        obtain ⟨next, stepped⟩ := Option.ne_none_iff_exists'.mp moves
        obtain ⟨last, runs, ended⟩ := ih next ⟨event, admitted, stepped⟩
        exact ⟨last, Relation.ReflTransGen.head ⟨event, admitted, stepped⟩ runs, ended⟩

end Machine

end Interaction
