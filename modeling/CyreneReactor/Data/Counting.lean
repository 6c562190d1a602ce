import Mathlib.Data.List.Perm.Basic

namespace Counting

/-! How many entries of a list satisfy a predicate, when one entry changes. -/

variable {α : Type} {values : List α} {index : Nat} {old new : α}

theorem countP_set (holds : α → Bool) (here : values[index]? = some old) (new : α) :
    (values.set index new).countP holds + (holds old).toNat =
      values.countP holds + (holds new).toNat := by
  obtain ⟨bound, rfl⟩ := List.getElem?_eq_some_iff.mp here
  have positive : holds values[index] = true → 0 < values.countP holds := fun found =>
    List.countP_pos_iff.mpr ⟨_, List.getElem_mem bound, found⟩
  rw [List.countP_set bound]
  cases held : holds values[index] with
  | true =>
      have some := positive held
      cases holds new <;> simp <;> omega
  | false => cases holds new <;> simp

theorem countP_eraseIdx (holds : α → Bool) (here : values[index]? = some old) :
    (values.eraseIdx index).countP holds + (holds old).toNat = values.countP holds := by
  obtain ⟨bound, rfl⟩ := List.getElem?_eq_some_iff.mp here
  have counted := (List.getElem_cons_eraseIdx_perm bound).countP_eq holds
  rw [List.countP_cons] at counted
  rw [← counted]
  cases holds values[index] <;> simp

theorem set_self (here : values[index]? = some old) : values.set index old = values := by
  obtain ⟨bound, rfl⟩ := List.getElem?_eq_some_iff.mp here
  exact List.set_getElem_self bound

/-- What is found after the change is the new entry or was there before. -/
theorem getElem?_set_cases {place : Nat} {value : α}
    (found : (values.set index new)[place]? = some value) :
    place = index ∧ value = new ∨ place ≠ index ∧ values[place]? = some value := by
  by_cases same : index = place
  · subst same
    have bound := (List.getElem?_eq_some_iff.mp found).1
    rw [List.length_set] at bound
    rw [List.getElem?_set_self bound, Option.some.injEq] at found
    exact .inl ⟨rfl, found.symm⟩
  · rw [List.getElem?_set_ne same] at found
    exact .inr ⟨Ne.symm same, found⟩

theorem getElem?_append_singleton_cases {place : Nat} {value : α}
    (found : (values ++ [new])[place]? = some value) :
    values[place]? = some value ∨ place = values.length ∧ value = new := by
  rcases Nat.lt_or_ge place values.length with before | after
  · rw [List.getElem?_append_left before] at found
    exact .inl found
  · rw [List.getElem?_append_right after, List.getElem?_singleton] at found
    split at found
    · cases found
      exact .inr ⟨by omega, rfl⟩
    · cases found

/-- An entry that is not the one that changed is still there. -/
theorem mem_set_of_mem {value : α} (member : value ∈ values) (here : values[index]? = some old)
    (different : value ≠ old) : value ∈ values.set index new := by
  obtain ⟨place, found⟩ := List.getElem?_of_mem member
  by_cases same : index = place
  · subst same
    rw [here, Option.some.injEq] at found
    exact absurd found.symm different
  · exact List.mem_of_getElem? ((List.getElem?_set_ne same).trans found)

theorem mem_set_self (here : values[index]? = some old) : new ∈ values.set index new :=
  List.mem_set (List.getElem?_eq_some_iff.mp here).1 new

/-- The sum of the weights. -/
def total (weight : α → Nat) : List α → Nat
  | [] => 0
  | value :: rest => weight value + total weight rest

theorem total_set (weight : α → Nat) (here : values[index]? = some old) (new : α) :
    total weight (values.set index new) + weight old = total weight values + weight new := by
  induction values generalizing index with
  | nil => cases here
  | cons value rest ih =>
      cases index with
      | zero =>
          cases here
          simp only [List.set_cons_zero, total]
          omega
      | succ index =>
          have later : rest[index]? = some old := by simpa using here
          have below := ih later
          simp only [List.set_cons_succ, total]
          omega

theorem total_map {weight : α → Nat} {change : α → α}
    (same : ∀ value, weight (change value) = weight value) :
    total weight (values.map change) = total weight values := by
  induction values with
  | nil => rfl
  | cons value rest ih => simp only [List.map_cons, total, same, ih]

end Counting
