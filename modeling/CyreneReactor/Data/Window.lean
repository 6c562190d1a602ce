import Mathlib.Data.List.Basic

namespace Window

/-! The last items of a list, as a container of bounded size keeps them. -/

variable {α : Type}

def last (size : Nat) (items : List α) : List α := items.drop (items.length - size)

@[simp] theorem last_nil (size : Nat) : last size ([] : List α) = [] := by
  simp [last]

theorem length_last (size : Nat) (items : List α) :
    (last size items).length = min size items.length := by
  rw [last, List.length_drop]
  omega

/-- What falls out of the window does not come back: it is enough to keep the window. -/
theorem last_append (size : Nat) (items : List α) (item : α) :
    last size (last size items ++ [item]) = last size (items ++ [item]) := by
  have length := length_last size items
  unfold last at length ⊢
  rw [List.length_append, length, List.length_append, List.length_singleton]
  by_cases full : size ≤ items.length
  · have joined : (items ++ [item]).drop (items.length - size) =
        items.drop (items.length - size) ++ [item] :=
      List.drop_append_of_le_length (Nat.sub_le items.length size)
    rw [← joined, List.drop_drop]
    congr 1
    omega
  · have whole : items.length - size = 0 := by omega
    rw [whole, List.drop_zero]
    congr 1
    omega

end Window
