import Mathlib.Algebra.Group.Nat.Defs
import Mathlib.Data.List.Basic

namespace TextOrder

/-! Texts that are compared character by character, and numbers written in them with a fixed
number of digits. -/

section Lists

variable {α : Type} [LT α] {left right front back : List α}

theorem append_lt_append_iff (same : left.length = right.length) :
    left ++ front < right ++ back ↔ left < right ∨ (left = right ∧ front < back) := by
  induction left generalizing right with
  | nil =>
      cases right with
      | nil => simp
      | cons head tail => simp at same
  | cons head tail ih =>
      cases right with
      | nil => simp at same
      | cons head' tail' =>
          simp only [List.length_cons, Nat.add_right_cancel_iff] at same
          simp only [List.cons_append, List.cons_lt_cons_iff, ih same, List.cons.injEq]
          grind

end Lists

/-- The last `width` digits of a number. -/
def digits : (width value : Nat) → List Char
  | 0, _ => []
  | width + 1, value => digits width (value / 10) ++ [Nat.digitChar (value % 10)]

@[simp] theorem length_digits (width value : Nat) : (digits width value).length = width := by
  induction width generalizing value with
  | zero => rfl
  | succ width ih => simp [digits, ih]

theorem digitChar_lt_iff {left right : Nat} (low : left < 10) (high : right < 10) :
    Nat.digitChar left < Nat.digitChar right ↔ left < right := by
  have table : ∀ left < 10, ∀ right < 10,
      Nat.digitChar left < Nat.digitChar right ↔ left < right := by
    decide
  exact table left low right high

theorem digitChar_inj {left right : Nat} (low : left < 10) (high : right < 10)
    (same : Nat.digitChar left = Nat.digitChar right) : left = right := by
  have table : ∀ left < 10, ∀ right < 10,
      Nat.digitChar left = Nat.digitChar right → left = right := by
    decide
  exact table left low right high same

section Digits

variable {width left right : Nat}

theorem digits_inj (low : left < 10 ^ width) (high : right < 10 ^ width)
    (same : digits width left = digits width right) : left = right := by
  induction width generalizing left right with
  | zero => simp_all
  | succ width ih =>
      rw [Nat.pow_succ] at low high
      obtain ⟨front, last⟩ := List.append_inj' same rfl
      have tens := ih (by omega) (by omega) front
      have units := digitChar_inj (Nat.mod_lt _ (by decide)) (Nat.mod_lt _ (by decide))
        (List.cons.inj last).1
      omega

theorem digits_lt_iff (low : left < 10 ^ width) (high : right < 10 ^ width) :
    digits width left < digits width right ↔ left < right := by
  induction width generalizing left right with
  | zero => simp_all [digits]
  | succ width ih =>
      rw [Nat.pow_succ] at low high
      have tens := @ih (left / 10) (right / 10) (by omega) (by omega)
      have same : digits width (left / 10) = digits width (right / 10) ↔
          left / 10 = right / 10 :=
        ⟨digits_inj (by omega) (by omega), congrArg _⟩
      have units : Nat.digitChar (left % 10) < Nat.digitChar (right % 10) ↔
          left % 10 < right % 10 :=
        digitChar_lt_iff (Nat.mod_lt _ (by decide)) (Nat.mod_lt _ (by decide))
      rw [digits, digits, append_lt_append_iff (by simp), tens, same, List.cons_lt_cons_iff, units]
      simp only [List.lt_irrefl, and_false, or_false]
      omega

/-- A number of fixed width is compared before what follows it. -/
theorem digits_append_lt_iff {front back : List Char} (low : left < 10 ^ width)
    (high : right < 10 ^ width) :
    digits width left ++ front < digits width right ++ back ↔
      left < right ∨ (left = right ∧ front < back) := by
  have same : digits width left = digits width right ↔ left = right :=
    ⟨digits_inj low high, congrArg _⟩
  rw [append_lt_append_iff (by simp), digits_lt_iff low high, same]

/-- Padding with zeros on the left. -/
theorem replicate_append_toDigits (positive : 0 < width) (bound : left < 10 ^ width) :
    List.replicate (width - (Nat.toDigits 10 left).length) '0' ++ Nat.toDigits 10 left =
      digits width left := by
  induction width generalizing left with
  | zero => omega
  | succ width ih =>
      rw [Nat.pow_succ] at bound
      by_cases small : left < 10
      · have zeros : ∀ width, digits width 0 = List.replicate width '0' := by
          intro width
          induction width with
          | zero => rfl
          | succ width ih => rw [digits, ih, List.replicate_succ']; rfl
        rw [digits, Nat.toDigits_of_lt_base small, Nat.div_eq_of_lt small,
          Nat.mod_eq_of_lt small, zeros]
        rfl
      · have inner : 0 < width := by
          by_contra zero
          obtain rfl : width = 0 := by omega
          simp at bound
          omega
        have tens := @ih (left / 10) inner (by omega)
        rw [digits, Nat.toDigits_of_base_le (by decide) (by omega), ← tens]
        simp

end Digits

end TextOrder
