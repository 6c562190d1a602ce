import Mathlib.Data.List.Infix

namespace Like

/-! SQL's `LIKE`, and where one text stands inside another.

`%` stands for any text and `_` for any one character; the two cases of a letter of
ASCII are the same.
-/

def fold (text : List Char) : List Char := text.map Char.toLower

@[simp]
theorem fold_nil : fold [] = [] := rfl

@[simp]
theorem fold_cons (char : Char) (text : List Char) :
    fold (char :: text) = char.toLower :: fold text := rfl

@[simp]
theorem fold_append (before after : List Char) :
    fold (before ++ after) = fold before ++ fold after := List.map_append

def like : List Char → List Char → Bool
  | [], text => text.isEmpty
  | '%' :: pattern, text => text.tails.any (like pattern)
  | '_' :: pattern, _ :: text => like pattern text
  | char :: pattern, other :: text => char.toLower == other.toLower && like pattern text
  | _ :: _, [] => false

section Pattern

variable {word : List Char}

theorem like_prefix (plain : '%' ∉ word ∧ '_' ∉ word) (text : List Char) :
    like (word ++ ['%']) text = true ↔ fold word <+: fold text := by
  induction word generalizing text with
  | nil =>
      simp [like]
  | cons char rest ih =>
      simp only [List.mem_cons, not_or] at plain
      cases text with
      | nil =>
          have other : like (char :: (rest ++ ['%'])) [] = false := by
            unfold like
            split <;> simp_all
          simp [other]
      | cons first text =>
          have step : like (char :: (rest ++ ['%'])) (first :: text) =
              (char.toLower == first.toLower && like (rest ++ ['%']) text) := by
            rw [like.eq_def]
            split <;> simp_all
          rw [List.cons_append, step, Bool.and_eq_true, beq_iff_eq,
            ih ⟨plain.1.2, plain.2.2⟩ text]
          simp [List.cons_prefix_cons]

/-- A word between two `%`. -/
theorem like_contains (plain : '%' ∉ word ∧ '_' ∉ word) (text : List Char) :
    like ('%' :: (word ++ ['%'])) text = true ↔ fold word <:+: fold text := by
  simp only [like]
  induction text with
  | nil =>
      simp only [List.tails, List.any_cons, List.any_nil, Bool.or_false, like_prefix plain]
      simp
  | cons first text ih =>
      rw [List.tails, List.any_cons, Bool.or_eq_true, like_prefix plain, ih]
      simp only [fold_cons, List.infix_cons_iff]

end Pattern

section Parts

variable {α : Type} {word before after : List α} {first separator : α}

theorem prefix_separated (absent : separator ∉ word) :
    word <+: before ++ separator :: after ↔ word <+: before := by
  constructor
  · intro found
    have marked : before ++ [separator] <+: before ++ separator :: after := ⟨after, by simp⟩
    rcases List.prefix_or_prefix_of_prefix found marked with short | long
    · rcases List.prefix_concat_iff.mp short with same | inside
      · exact absurd (same ▸ List.mem_append_right _ List.mem_cons_self) absent
      · exact inside
    · exact absurd (long.subset (List.mem_append_right _ List.mem_cons_self)) absent
  · exact fun found => found.trans (List.prefix_append _ _)

/-- What does not hold the separator is on one side of it. -/
theorem infix_separated (some : word ≠ []) (absent : separator ∉ word) :
    word <:+: before ++ separator :: after ↔ word <:+: before ∨ word <:+: after := by
  induction before with
  | nil =>
      have apart : ¬ word <+: separator :: after := by
        intro found
        have nothing : word <+: [] :=
          (prefix_separated absent).mp (by rwa [List.nil_append])
        exact some (List.prefix_nil.mp nothing)
      simp [List.infix_cons_iff, apart, some]
  | cons char before ih =>
      rw [List.cons_append, List.infix_cons_iff, List.infix_cons_iff, ih, ← List.cons_append,
        prefix_separated absent, or_assoc]

/-- What does not hold the first character has nothing of the word before it. -/
theorem infix_append_of_head (absent : first ∉ before) :
    first :: word <:+: before ++ after ↔ first :: word <:+: after := by
  induction before with
  | nil => rfl
  | cons char before ih =>
      simp only [List.mem_cons, not_or] at absent
      rw [List.cons_append, List.infix_cons_iff, ih absent.2, List.cons_prefix_cons]
      simp [absent.1]

theorem not_infix_of_absent (member : first ∈ word) (absent : first ∉ after) :
    ¬ word <:+: after :=
  fun found => absent (found.subset member)

end Parts

end Like
