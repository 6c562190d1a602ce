import Mathlib.Data.List.Infix
import Mathlib.Data.List.TakeWhile

namespace Substitution

/-! Texts in which a pattern is replaced from the left, as `re.sub` does. -/

/-- A pattern finds the match at the start of a text, and what follows it. -/
structure Pattern (α : Type) where
  find : List α → Option (List α × List α)
  splits : ∀ {text found rest}, find text = some (found, rest) → found ++ rest = text
  nonempty : ∀ {text found rest}, find text = some (found, rest) → found ≠ []

variable {α : Type} (pattern : Pattern α) (replace : List α → List α)

theorem Pattern.shorter {text found rest : List α}
    (finds : pattern.find text = some (found, rest)) : rest.length < text.length := by
  have positive := List.length_pos_iff.mpr (pattern.nonempty finds)
  rw [← pattern.splits finds, List.length_append]
  omega

theorem Pattern.find_nil : pattern.find [] = none := by
  cases finds : pattern.find [] with
  | none => rfl
  | some parts => exact absurd (pattern.shorter finds) (Nat.not_lt_zero _)

/-- `regex.sub(replace, text)` -/
def sub (text : List α) : List α :=
  match _finds : pattern.find text with
  | some (found, rest) => replace found ++ sub rest
  | none =>
      match text with
      | [] => []
      | first :: rest => first :: sub rest
termination_by text.length
decreasing_by
  · exact pattern.shorter _finds
  · exact Nat.lt_succ_self _

variable {pattern} {replace}

theorem sub_nil : sub pattern replace [] = [] := by
  unfold sub
  split
  · rename_i finds
    rw [pattern.find_nil] at finds
    cases finds
  · rfl

theorem sub_found {text found rest : List α} (finds : pattern.find text = some (found, rest)) :
    sub pattern replace text = replace found ++ sub pattern replace rest := by
  rw [sub]
  split
  · rename_i finds'
    rw [finds] at finds'
    cases finds'
    rfl
  · rename_i none
    rw [finds] at none
    cases none

theorem sub_skip {first : α} {rest : List α} (skips : pattern.find (first :: rest) = none) :
    sub pattern replace (first :: rest) = first :: sub pattern replace rest := by
  rw [sub]
  split
  · rename_i finds
    rw [skips] at finds
    cases finds
  · rfl

variable (pattern) in
/-- A text is empty, or starts with a match, or with an item that none starts at. -/
theorem sub_cases {motive : List α → Prop} (text : List α) (nil : motive [])
    (found : ∀ text found rest, pattern.find text = some (found, rest) → motive rest → motive text)
    (skip : ∀ first rest, pattern.find (first :: rest) = none → motive rest →
      motive (first :: rest)) : motive text := by
  induction size : text.length using Nat.strongRecOn generalizing text with
  | ind size ih =>
      subst size
      cases finds : pattern.find text with
      | some parts => exact found text parts.1 parts.2 finds (ih _ (pattern.shorter finds) _ rfl)
      | none =>
          cases text with
          | nil => exact nil
          | cons first rest => exact skip first rest finds (ih _ (by simp) rest rfl)

/-- What the predicate asks of the start of a text holds somewhere in it. -/
def Somewhere (starts : List α → Prop) (text : List α) : Prop :=
  ∃ front back, text = front ++ back ∧ starts back

section Somewhere

variable {starts : List α → Prop}

theorem somewhere_nil (never : ¬ starts []) : ¬ Somewhere starts [] := by
  intro somewhere
  obtain ⟨front, back, same, holds⟩ := somewhere
  rw [(List.append_eq_nil_iff.mp same.symm).2] at holds
  exact never holds

theorem somewhere_cons {first : α} {rest : List α} :
    Somewhere starts (first :: rest) ↔ starts (first :: rest) ∨ Somewhere starts rest := by
  constructor
  · intro somewhere
    obtain ⟨front, back, same, holds⟩ := somewhere
    cases front with
    | nil =>
        rw [List.nil_append] at same
        exact .inl (same ▸ holds)
    | cons other front =>
        simp only [List.cons_append, List.cons.injEq] at same
        exact .inr ⟨front, back, same.2, holds⟩
  · intro either
    rcases either with holds | ⟨front, back, same, holds⟩
    · exact ⟨[], _, rfl, holds⟩
    · exact ⟨first :: front, back, by rw [same, List.cons_append], holds⟩

/-- What is somewhere in two texts put together is in the second, or starts in the first. -/
theorem somewhere_append {front back : List α} (somewhere : Somewhere starts (front ++ back)) :
    Somewhere starts back ∨
      ∃ tail, tail <:+ front ∧ tail ≠ [] ∧ starts (tail ++ back) := by
  induction front with
  | nil => exact .inl somewhere
  | cons first rest ih =>
      rw [List.cons_append, somewhere_cons] at somewhere
      rcases somewhere with holds | later
      · exact .inr ⟨first :: rest, List.suffix_refl _, List.cons_ne_nil _ _, holds⟩
      · rcases ih later with inBack | ⟨tail, isTail, some, holds⟩
        · exact .inl inBack
        · exact .inr ⟨tail, isTail.trans (List.suffix_cons _ _), some, holds⟩

theorem somewhere_append_right {front back : List α} (somewhere : Somewhere starts back) :
    Somewhere starts (front ++ back) := by
  obtain ⟨before, after, rfl, holds⟩ := somewhere
  exact ⟨front ++ before, after, by rw [List.append_assoc], holds⟩

end Somewhere

/-- A match starts somewhere in the text. -/
def Occurs (pattern : Pattern α) : List α → Prop :=
  Somewhere fun text => (pattern.find text).isSome = true

theorem occurs_nil : ¬ Occurs pattern [] := by
  apply somewhere_nil
  rw [pattern.find_nil]
  exact Bool.false_ne_true

/-- Where nothing matches, nothing is replaced. -/
theorem sub_eq_self {text : List α} (free : ¬ Occurs pattern text) :
    sub pattern replace text = text := by
  induction text with
  | nil => exact sub_nil
  | cons first rest ih =>
      rw [Occurs, somewhere_cons, not_or, Bool.not_eq_true, Option.isSome_eq_false_iff,
        Option.isNone_iff_eq_none] at free
      rw [sub_skip free.1, ih free.2]

/-- An item with which no replacement starts was there before. -/
theorem sub_eq_cons {text rest : List α} {first : α}
    (other : ∀ {text found rest}, pattern.find text = some (found, rest) →
      ∃ start more, replace found = start :: more ∧ start ≠ first)
    (same : sub pattern replace text = first :: rest) :
    ∃ before, text = first :: before ∧ rest = sub pattern replace before := by
  cases finds : pattern.find text with
  | some parts =>
      obtain ⟨start, more, starts, apart⟩ := other finds
      rw [sub_found finds, starts, List.cons_append, List.cons.injEq] at same
      exact absurd same.1 apart
  | none =>
      cases text with
      | nil =>
          rw [sub_nil] at same
          cases same
      | cons char before =>
          rw [sub_skip finds, List.cons.injEq] at same
          exact ⟨before, by rw [same.1], same.2.symm⟩

/-- The same of a word with none of whose items a replacement starts. -/
theorem sub_eq_append {text word rest : List α}
    (other : ∀ char ∈ word, ∀ {text found rest}, pattern.find text = some (found, rest) →
      ∃ start more, replace found = start :: more ∧ start ≠ char)
    (same : sub pattern replace text = word ++ rest) :
    ∃ before, text = word ++ before ∧ rest = sub pattern replace before := by
  induction word generalizing text with
  | nil => exact ⟨text, rfl, same.symm⟩
  | cons char word ih =>
      obtain ⟨before, rfl, later⟩ := sub_eq_cons (other char List.mem_cons_self) same
      obtain ⟨behind, rfl, last⟩ :=
        ih (fun other' member => other other' (List.mem_cons_of_mem _ member)) later.symm
      exact ⟨behind, rfl, last⟩

end Substitution
