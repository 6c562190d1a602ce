import Mathlib.Data.List.Basic
import Mathlib.Tactic.IntervalCases

namespace Calendar

/-! The proleptic Gregorian calendar, with the days numbered from the first day of year 1. -/

def IsLeap (year : Nat) : Prop := year % 4 = 0 ∧ (year % 100 ≠ 0 ∨ year % 400 = 0)

instance (year : Nat) : Decidable (IsLeap year) :=
  inferInstanceAs (Decidable (_ ∧ _))

def daysInYear (year : Nat) : Nat := if IsLeap year then 366 else 365

def daysInMonth (year month : Nat) : Nat :=
  if month = 2 then (if IsLeap year then 29 else 28)
  else if month = 4 ∨ month = 6 ∨ month = 9 ∨ month = 11 then 30
  else 31

def daysBeforeYear (year : Nat) : Nat :=
  (year - 1) * 365 + (year - 1) / 4 - (year - 1) / 100 + (year - 1) / 400

def daysBeforeMonth (year : Nat) : Nat → Nat
  | 0 | 1 => 0
  | month + 2 => daysBeforeMonth year (month + 1) + daysInMonth year (month + 1)

def ordinal (year month day : Nat) : Nat :=
  daysBeforeYear year + daysBeforeMonth year month + day

/-- A date with a year of at most four digits. -/
def IsDate (year month day : Nat) : Prop :=
  1 ≤ year ∧ year ≤ 9999 ∧ 1 ≤ month ∧ month ≤ 12 ∧ 1 ≤ day ∧ day ≤ daysInMonth year month

instance (year month day : Nat) : Decidable (IsDate year month day) :=
  inferInstanceAs (Decidable (_ ∧ _))

theorem daysBeforeYear_succ {year : Nat} (positive : 1 ≤ year) :
    daysBeforeYear (year + 1) = daysBeforeYear year + daysInYear year := by
  obtain ⟨passed, rfl⟩ : ∃ passed, year = passed + 1 := ⟨year - 1, by omega⟩
  have less : passed / 100 ≤ passed / 4 := Nat.div_le_div_left (by decide) (by decide)
  have fewer : (passed + 1) / 100 ≤ (passed + 1) / 4 :=
    Nat.div_le_div_left (by decide) (by decide)
  have fours : (passed + 1) / 4 = passed / 4 + if (passed + 1) % 4 = 0 then 1 else 0 := by
    split <;> omega
  have hundreds :
      (passed + 1) / 100 = passed / 100 + if (passed + 1) % 100 = 0 then 1 else 0 := by
    split <;> omega
  have cycles : (passed + 1) / 400 = passed / 400 + if (passed + 1) % 400 = 0 then 1 else 0 := by
    split <;> omega
  have hundredth : (passed + 1) % 100 = 0 → (passed + 1) % 4 = 0 := by omega
  have fourth : (passed + 1) % 400 = 0 → (passed + 1) % 100 = 0 := by omega
  simp only [daysBeforeYear, Nat.add_sub_cancel]
  unfold daysInYear
  generalize (passed + 1) / 4 = four, (passed + 1) / 100 = hundred,
    (passed + 1) / 400 = cycle at fours hundreds cycles fewer ⊢
  by_cases leap : IsLeap (passed + 1)
  · rw [if_pos leap]
    obtain ⟨isFourth, rule⟩ := leap
    split_ifs at fours hundreds cycles <;> omega
  · rw [if_neg leap]
    simp only [IsLeap, not_and, not_or] at leap
    split_ifs at fours hundreds cycles <;> omega

theorem daysBeforeYear_le {year later : Nat} (positive : 1 ≤ year) (before : year < later) :
    daysBeforeYear year + daysInYear year ≤ daysBeforeYear later := by
  induction later with
  | zero => omega
  | succ later ih =>
      rw [daysBeforeYear_succ (by omega)]
      by_cases last : year = later
      · subst last
        exact Nat.le_refl _
      · have earlier := ih (by omega)
        omega

theorem daysBeforeMonth_succ {year month : Nat} (positive : 1 ≤ month) :
    daysBeforeMonth year (month + 1) = daysBeforeMonth year month + daysInMonth year month := by
  cases month with
  | zero => omega
  | succ month => rfl

theorem daysBeforeMonth_le {year month later : Nat} (positive : 1 ≤ month)
    (before : month < later) :
    daysBeforeMonth year month + daysInMonth year month ≤ daysBeforeMonth year later := by
  induction later with
  | zero => omega
  | succ later ih =>
      rw [daysBeforeMonth_succ (by omega)]
      by_cases last : month = later
      · subst last
        exact Nat.le_refl _
      · have earlier := ih (by omega)
        omega

/-- The months fill the year. -/
theorem daysBeforeMonth_year (year : Nat) : daysBeforeMonth year 13 = daysInYear year := by
  by_cases leap : IsLeap year
  · simp [daysBeforeMonth, daysInMonth, daysInYear, leap]
  · simp [daysBeforeMonth, daysInMonth, daysInYear, leap]

section Order

variable {year month day year' month' day' : Nat}

theorem ordinal_le_year (date : IsDate year month day) :
    ordinal year month day ≤ daysBeforeYear year + daysInYear year := by
  obtain ⟨_, _, positive, last, _, bound⟩ := date
  have months := @daysBeforeMonth_le year month 13 positive (by omega)
  rw [daysBeforeMonth_year] at months
  unfold ordinal
  omega

theorem ordinal_lt (date : IsDate year month day) (date' : IsDate year' month' day')
    (before : year < year' ∨ (year = year' ∧ (month < month' ∨ (month = month' ∧ day < day')))) :
    ordinal year month day < ordinal year' month' day' := by
  have within := ordinal_le_year date
  obtain ⟨positive, _, first, _, _, bound⟩ := date
  obtain ⟨_, _, _, _, inner, _⟩ := date'
  rcases before with years | ⟨rfl, months | ⟨rfl, days⟩⟩
  · have passed := daysBeforeYear_le positive years
    unfold ordinal at within ⊢
    omega
  · have passed := @daysBeforeMonth_le year month month' first months
    unfold ordinal
    omega
  · unfold ordinal
    omega

/-- Dates are numbered in their order. -/
theorem ordinal_lt_iff (date : IsDate year month day) (date' : IsDate year' month' day') :
    ordinal year month day < ordinal year' month' day' ↔
      year < year' ∨ (year = year' ∧ (month < month' ∨ (month = month' ∧ day < day'))) := by
  constructor
  · intro less
    by_contra notBefore
    by_cases same : year' = year ∧ month' = month ∧ day' = day
    · obtain ⟨rfl, rfl, rfl⟩ := same
      exact Nat.lt_irrefl _ less
    · have after := ordinal_lt date' date (by omega)
      omega
  · exact ordinal_lt date date'

theorem ordinal_inj (date : IsDate year month day) (date' : IsDate year' month' day') :
    ordinal year month day = ordinal year' month' day' ↔
      year = year' ∧ month = month' ∧ day = day' := by
  have forward := ordinal_lt_iff date date'
  have backward := ordinal_lt_iff date' date
  omega

end Order

end Calendar
