import Mathlib.Algebra.Order.Field.Basic
import Mathlib.Data.List.Basic
import Mathlib.Tactic.Linarith

namespace Interpolation

/-! Values read between the entries of a list.

A position is the index of an entry and how far it lies on the way to the next one; behind the
last entry there is no next one, and the value stays.
-/

variable {α : Type} [Field α] [LinearOrder α] [IsStrictOrderedRing α]

/-- The point between `low` and `high` at `weight`. -/
def blend (low high weight : α) : α := low + weight * (high - low)

section Blend

variable {low high weight more : α}

theorem le_blend (ordered : low ≤ high) (positive : 0 ≤ weight) : low ≤ blend low high weight := by
  have grown := mul_nonneg positive (sub_nonneg.mpr ordered)
  unfold blend
  linarith

theorem blend_le (ordered : low ≤ high) (partial' : weight ≤ 1) : blend low high weight ≤ high := by
  have rest := mul_nonneg (sub_nonneg.mpr partial') (sub_nonneg.mpr ordered)
  unfold blend
  linarith

theorem blend_mono (ordered : low ≤ high) (further : weight ≤ more) :
    blend low high weight ≤ blend low high more := by
  have grown := mul_le_mul_of_nonneg_right further (sub_nonneg.mpr ordered)
  unfold blend
  linarith

end Blend

/-- `value` is what `data` shows at `position`. -/
structure Reads (data : List α) (position value : α) (index : Nat) (weight : α) : Prop where
  inside : index < data.length
  position_eq : position = index + weight
  positive : 0 ≤ weight
  below : weight < 1
  value_eq : ∃ low high, data[index]? = some low ∧
    data[min (index + 1) (data.length - 1)]? = some high ∧
    value = blend low high weight

section Sorted

variable {data : List α} {position value later last : α} {index next : Nat} {weight more : α}

omit [Field α] [IsStrictOrderedRing α] in
theorem getElem?_mono (sorted : data.Pairwise (· ≤ ·)) {first second : Nat} {low high : α}
    (before : first ≤ second) (here : data[first]? = some low) (there : data[second]? = some high) :
    low ≤ high := by
  obtain ⟨bound, rfl⟩ := List.getElem?_eq_some_iff.mp here
  obtain ⟨bound', rfl⟩ := List.getElem?_eq_some_iff.mp there
  rcases Nat.lt_or_eq_of_le before with less | same
  · exact List.pairwise_iff_getElem.mp sorted first second bound bound' less
  · subst same
    exact le_refl _

omit [Field α] [IsStrictOrderedRing α] in
/-- The entries of a sorted list lie between its first and its last. -/
theorem mem_bounds (sorted : data.Pairwise (· ≤ ·)) (entries : data ≠ []) {item : α}
    (member : item ∈ data) : data.head entries ≤ item ∧ item ≤ data.getLast entries := by
  obtain ⟨place, here⟩ := List.mem_iff_getElem?.mp member
  have inside := (List.getElem?_eq_some_iff.mp here).1
  have front : data[0]? = some (data.head entries) := by
    rw [List.head_eq_getElem, List.getElem?_eq_getElem]
  have back : data[data.length - 1]? = some (data.getLast entries) := by
    rw [← List.getLast?_eq_getElem?, List.getLast?_eq_some_getLast entries]
  exact ⟨getElem?_mono sorted (Nat.zero_le place) front here,
    getElem?_mono sorted (Nat.le_sub_one_of_lt inside) here back⟩

/-- A value lies between the two entries it is read from. -/
theorem Reads.between (reads : Reads data position value index weight)
    (sorted : data.Pairwise (· ≤ ·)) : ∃ low high, data[index]? = some low ∧
      data[min (index + 1) (data.length - 1)]? = some high ∧ low ≤ value ∧ value ≤ high := by
  obtain ⟨low, high, here, there, rfl⟩ := reads.value_eq
  have inside := reads.inside
  have ordered := getElem?_mono sorted (by omega) here there
  exact ⟨low, high, here, there, le_blend ordered reads.positive, blend_le ordered reads.below.le⟩

/-- What a sorted list shows grows with the position. -/
theorem Reads.mono (reads : Reads data position value index weight)
    (reads' : Reads data later last next more) (sorted : data.Pairwise (· ≤ ·))
    (further : position ≤ later) : value ≤ last := by
  have inside := reads'.inside
  rcases Nat.lt_trichotomy index next with less | same | more'
  · -- the entry that ends the first segment is not behind the one that starts the second
    obtain ⟨_, high, _, there, _, upper⟩ := reads.between sorted
    obtain ⟨low, _, here, _, lower, _⟩ := reads'.between sorted
    have ordered := getElem?_mono sorted (by omega) there here
    exact upper.trans (ordered.trans lower)
  · subst same
    obtain ⟨low, high, here, there, rfl⟩ := reads.value_eq
    obtain ⟨low', high', here', there', rfl⟩ := reads'.value_eq
    rw [here, Option.some.injEq] at here'
    rw [there, Option.some.injEq] at there'
    subst here' there'
    have weights : weight ≤ more := by
      have first := reads.position_eq
      have second := reads'.position_eq
      linarith
    exact blend_mono (getElem?_mono sorted (by omega) here there) weights
  · have whole : (next : α) + 1 ≤ index := by exact_mod_cast more'
    have first := reads.position_eq
    have second := reads'.position_eq
    have positive := reads.positive
    have below := reads'.below
    linarith

/-- What a sorted list shows is not below its first entry, nor above its last. -/
theorem Reads.bounds (reads : Reads data position value index weight)
    (sorted : data.Pairwise (· ≤ ·)) (entries : data ≠ []) :
    data.head entries ≤ value ∧ value ≤ data.getLast entries := by
  obtain ⟨low, high, here, there, lower, upper⟩ := reads.between sorted
  have first := mem_bounds sorted entries (List.mem_of_getElem? here)
  have last := mem_bounds sorted entries (List.mem_of_getElem? there)
  exact ⟨first.1.trans lower, upper.trans last.2⟩

end Sorted

end Interpolation
