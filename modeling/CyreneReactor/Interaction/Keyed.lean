import CyreneReactor.Interaction.Trail
import Mathlib.Logic.Function.Basic

namespace Interaction

/-! One automaton for each key, and all of them at once. -/

variable {Key Mark Place : Type} [DecidableEq Key] {key : Mark → Key}
variable {next : Place → Mark → Option Place}

/-- A mark moves the automaton of its key. -/
def keyed (key : Mark → Key) (next : Place → Mark → Option Place) (places : Key → Place)
    (mark : Mark) : Option (Key → Place) :=
  (next (places (key mark)) mark).map (Function.update places (key mark))

/-- All of them are led along exactly where each is, by the marks of its key. -/
theorem follow_keyed {places last : Key → Place} {marks : List Mark} :
    follow (keyed key next) places marks = some last ↔
      ∀ wanted, follow next (places wanted) (marks.filter fun mark => key mark = wanted) =
        some (last wanted) := by
  induction marks generalizing places with
  | nil =>
      constructor
      · intro followed wanted
        cases followed
        rfl
      · intro each
        exact congrArg some (funext fun wanted => Option.some.inj (each wanted))
  | cons mark rest ih =>
      rw [follow_cons]
      constructor
      · rintro ⟨middle, moved, later⟩ wanted
        obtain ⟨place, stepped, rfl⟩ := Option.map_eq_some_iff.mp moved
        have each := ih.mp later wanted
        by_cases same : key mark = wanted
        · subst same
          rw [List.filter_cons_of_pos (by simp), follow_cons]
          rw [Function.update_self] at each
          exact ⟨place, stepped, each⟩
        · rw [List.filter_cons_of_neg (by simp [same])]
          rw [Function.update_of_ne (Ne.symm same)] at each
          exact each
      · intro each
        have own := each (key mark)
        rw [List.filter_cons_of_pos (by simp), follow_cons] at own
        obtain ⟨place, stepped, later⟩ := own
        refine ⟨Function.update places (key mark) place, ?_, ih.mpr fun wanted => ?_⟩
        · rw [keyed, stepped]
          rfl
        · by_cases same : key mark = wanted
          · subst same
            rw [Function.update_self]
            exact later
          · rw [Function.update_of_ne (Ne.symm same)]
            have unmoved := each wanted
            rw [List.filter_cons_of_neg (by simp [same])] at unmoved
            exact unmoved

end Interaction
