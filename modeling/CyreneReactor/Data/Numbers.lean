import Mathlib.Data.Rat.Defs
import Mathlib.Algebra.Order.Ring.Rat

namespace Numbers

/-! The numbers of Python: integers of any size, and floats with the rational they stand
for.  `float` rounds an integer to the nearest double and raises where there is none.
-/

inductive Number where
  | int (value : Int)
  | float (value : Rat)
  | infinity (negative : Bool)
  | nan
deriving DecidableEq, Repr

/-- What converting or formatting a number raises. -/
inductive NumberError where
  | overflowError (text : String)
  | valueError (text : String)
deriving DecidableEq, Repr

namespace Number

/-- `left < right`, which compares integers and floats as the numbers they are. -/
def below : Number → Number → Bool
  | .nan, _ | _, .nan => false
  | .infinity left, .infinity right => left && !right
  | .infinity negative, _ => negative
  | _, .infinity negative => !negative
  | .int left, .int right => left < right
  | .int left, .float right => (left : Rat) < right
  | .float left, .int right => left < (right : Rat)
  | .float left, .float right => left < right

instance : LT Number := ⟨fun left right => left.below right = true⟩

instance : DecidableLT Number := fun left right =>
  inferInstanceAs (Decidable (left.below right = true))

end Number

/-- The nearest quotient, the even one of two. -/
def roundHalfEven (numerator denominator : Nat) : Nat :=
  let quotient := numerator / denominator
  let rest := 2 * (numerator % denominator)
  if rest > denominator ∨ (rest = denominator ∧ quotient % 2 = 1) then quotient + 1 else quotient

/-- The nearest natural number with a significand of 53 bits. -/
def roundMagnitude (magnitude : Nat) : Nat :=
  if magnitude < 2 ^ 53 then magnitude
  else
    let unit := 2 ^ (magnitude.log2 - 52)
    roundHalfEven magnitude unit * unit

/-- The double that an integer is rounded to; there is none from `2 ** 1024` on. -/
def double? (value : Int) : Option Int :=
  let magnitude := roundMagnitude value.natAbs
  if magnitude.log2 < 1024 then some (if value < 0 then -magnitude else magnitude) else none

/-- `float(value)` -/
def Number.toFloat : Number → Except NumberError Number
  | .int value =>
      match double? value with
      | some rounded => .ok (.float rounded)
      | none => .error (.overflowError "int too large to convert to float")
  | value => .ok value

/-- Two numbers that no third one tells apart. -/
def Alike {α : Type} [LT α] (left right : α) : Prop :=
  ∀ other, (other < left ↔ other < right) ∧ (left < other ↔ right < other)

theorem Alike.refl {α : Type} [LT α] (value : α) : Alike value value :=
  fun _ => ⟨.rfl, .rfl⟩

theorem Alike.lt_iff {α : Type} [LT α] {left left' right right' : α} (alike : Alike left left')
    (alike' : Alike right right') : left < right ↔ left' < right' :=
  (alike right).2.trans (alike' left').1

theorem double?_small {value : Int} (small : value.natAbs < 2 ^ 53) :
    double? value = some value := by
  have whole : roundMagnitude value.natAbs = value.natAbs := if_pos small
  have bounded : value.natAbs.log2 < 1024 := by
    rcases Nat.eq_zero_or_pos value.natAbs with none | positive
    · rw [none]
      decide
    · exact ((Nat.log2_lt positive.ne').mpr small).trans (by decide)
  simp only [double?, whole, bounded, if_true, Option.some.injEq]
  omega

theorem Number.alike_of_int (value : Int) : Alike (Number.float value) (Number.int value) := by
  intro other
  change (Number.below _ _ = true ↔ Number.below _ _ = true) ∧
    (Number.below _ _ = true ↔ Number.below _ _ = true)
  cases other with
  | int other => simp only [Number.below, decide_eq_true_eq, Rat.intCast_lt_intCast, and_self]
  | float other | infinity negative | nan => exact ⟨.rfl, .rfl⟩

/-- Floats, and integers of less than 54 bits, are converted as they are. -/
theorem Number.toFloat_exact {value : Number}
    (exact : ∀ whole, value = .int whole → whole.natAbs < 2 ^ 53) :
    ∃ converted, value.toFloat = .ok converted ∧ Alike converted value := by
  cases value with
  | int whole =>
      refine ⟨.float whole, ?_, Number.alike_of_int whole⟩
      simp only [Number.toFloat, double?_small (exact whole rfl)]
  | float | infinity | nan => exact ⟨_, rfl, .refl _⟩

end Numbers
