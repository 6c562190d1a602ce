import Mathlib.Data.List.Infix
import Mathlib.Data.List.TakeWhile

namespace PyText

/-! Operations of Python's `str`, on the list of its characters. -/

/-- The characters that `str.strip` takes away. -/
def isSpace (char : Char) : Bool :=
  (9 ≤ char.toNat && char.toNat ≤ 13) || (28 ≤ char.toNat && char.toNat ≤ 32) ||
    (0x2000 ≤ char.toNat && char.toNat ≤ 0x200a) ||
    [0x85, 0xa0, 0x1680, 0x2028, 0x2029, 0x202f, 0x205f, 0x3000].contains char.toNat

def strip (text : List Char) : List Char :=
  ((text.dropWhile isSpace).reverse.dropWhile isSpace).reverse

theorem strip_eq_nil {text : List Char} : strip text = [] ↔ ∀ char ∈ text, isSpace char = true := by
  unfold strip
  rw [List.reverse_eq_nil_iff, List.dropWhile_eq_nil_iff]
  constructor
  · intro inner char member
    by_contra visible
    have start : text.dropWhile isSpace ≠ [] := by
      rw [Ne, List.dropWhile_eq_nil_iff]
      exact fun all => visible (all char member)
    have first := List.head_dropWhile_not isSpace start
    have blank := inner _ (List.mem_reverse.mpr (List.head_mem start))
    rw [first] at blank
    cases blank
  · intro all char member
    exact all char (List.dropWhile_suffix isSpace |>.mem (List.mem_reverse.mp member))

/-- `str.replace`, for an `old` that is not empty. -/
def replace (old new : List Char) (text : List Char) : List Char :=
  match text with
  | [] => []
  | char :: rest =>
      if old.isPrefixOf (char :: rest) then new ++ replace old new (rest.drop (old.length - 1))
      else char :: replace old new rest
termination_by text.length
decreasing_by
  · simp only [List.length_drop, List.length_cons]
    omega
  · simp

theorem replace_char (old new : Char) (text : List Char) :
    replace [old] [new] text = text.map fun char => if char = old then new else char := by
  induction text with
  | nil =>
      unfold replace
      rfl
  | cons char rest ih =>
      unfold replace
      by_cases same : char = old
      · simp [same, ih]
      · have apart : ¬ old = char := fun equal => same equal.symm
        simp [same, apart, ih]

theorem replace_none (old : Char) (text : List Char) :
    replace [old] [] text = text.filter fun char => char ≠ old := by
  induction text with
  | nil =>
      unfold replace
      rfl
  | cons char rest ih =>
      unfold replace
      by_cases same : char = old
      · simp [same, ih]
      · have apart : ¬ old = char := fun equal => same equal.symm
        simp [same, apart, ih]

end PyText
