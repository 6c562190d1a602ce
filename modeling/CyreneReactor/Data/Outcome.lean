import Mathlib.Data.List.Forall2

namespace Outcome

/-! Computations that end with a value or an error. -/

variable {ε α β : Type} {first : Except ε α} {last : β}

theorem ok_bind {value : α} {next : α → Except ε β} :
    ((.ok value : Except ε α) >>= next) = next value := rfl

theorem bind_eq_ok {next : α → Except ε β} :
    (first >>= next) = .ok last ↔ ∃ value, first = .ok value ∧ next value = .ok last := by
  cases first <;> simp [bind, Except.bind]

theorem bind_ends {next : α → Except ε β} :
    (∃ last, (first >>= next) = .ok last) ↔
      ∃ value, first = .ok value ∧ ∃ last, next value = .ok last := by
  cases first <;> simp [bind, Except.bind]

theorem map_eq_ok {finish : α → β} :
    first.map finish = .ok last ↔ ∃ value, first = .ok value ∧ finish value = last := by
  cases first <;> simp [Except.map]

/-- All that a computation may end with, when it ends with an error. -/
def Raises (allowed : ε → Prop) (outcome : Except ε α) : Prop :=
  ∀ raised, outcome = .error raised → allowed raised

section Raising

variable {allowed : ε → Prop} {outcome : Except ε α}

theorem raises_ok {value : α} : Raises allowed (.ok value : Except ε α) := by
  intro raised same
  cases same

theorem raises_error {raised : ε} :
    Raises allowed (.error raised : Except ε α) ↔ allowed raised := by
  simp [Raises]

theorem Raises.bind {next : α → Except ε β} (before : Raises allowed outcome)
    (after : ∀ value, outcome = .ok value → Raises allowed (next value)) :
    Raises allowed (outcome >>= next) := by
  cases outcome with
  | ok value => exact after value rfl
  | error raised =>
      intro same raises
      cases raises
      exact before raised rfl

theorem Raises.map {finish : α → β} (before : Raises allowed outcome) :
    Raises allowed (outcome.map finish) := by
  intro raised raises
  cases outcome with
  | ok value => cases raises
  | error other =>
      cases raises
      exact before raised rfl

theorem Raises.mono {weaker : ε → Prop} (raises : Raises allowed outcome)
    (implies : ∀ raised, allowed raised → weaker raised) : Raises weaker outcome :=
  fun raised same => implies raised (raises raised same)

end Raising

/-- A list is worked off where each of its members is. -/
theorem mapM_eq_ok {work : α → Except ε β} {items : List α} {results : List β} :
    items.mapM work = .ok results ↔
      List.Forall₂ (fun item result => work item = .ok result) items results := by
  induction items generalizing results with
  | nil =>
      rw [List.mapM_nil, List.forall₂_nil_left_iff]
      constructor
      · intro same
        cases same
        rfl
      · intro same
        rw [same]
        rfl
  | cons item rest ih =>
      rw [List.mapM_cons, bind_eq_ok, List.forall₂_cons_left_iff]
      constructor
      · intro worked
        obtain ⟨result, first, worked⟩ := worked
        obtain ⟨later, others, same⟩ := bind_eq_ok.mp worked
        cases same
        exact ⟨result, later, first, ih.mp others, rfl⟩
      · intro each
        obtain ⟨result, later, first, others, rfl⟩ := each
        exact ⟨result, first, bind_eq_ok.mpr ⟨later, ih.mpr others, rfl⟩⟩

end Outcome
