import Mathlib.Data.List.Basic

namespace Paging

/-! A list served in pages, each a prefix of what is left. -/

variable {α : Type} {fits : List α → Prop} {all items remaining : List α}
  {page : Nat → List α → Prop} {start : Nat} {pages : List (List α)}

/-- No longer prefix fits. -/
structure Longest (fits : List α → Prop) (items remaining : List α) : Prop where
  isPrefix : items <+: remaining
  fitting : fits items
  longest : ∀ other, other <+: remaining → fits other → other.length ≤ items.length

/-- What is left is served as long as its first item fits. -/
theorem Longest.ne_nil {first : α} {rest : List α} (longest : Longest fits items (first :: rest))
    (single : fits [first]) : items ≠ [] := by
  intro empty
  have bound := longest.longest [first] (List.prefix_append [first] rest) single
  simp [empty] at bound

/-- Pages one after the other, each starting where the one before ended. -/
def Chain (page : Nat → List α → Prop) : Nat → List (List α) → Prop
  | _, [] => True
  | start, items :: rest => page start items ∧ Chain page (start + items.length) rest

theorem Chain.isPrefix (chain : Chain page start pages)
    (prefixes : ∀ start items, page start items → items <+: all.drop start) :
    pages.flatten <+: all.drop start := by
  induction pages generalizing start with
  | nil => exact List.nil_prefix
  | cons items rest ih =>
      obtain ⟨served, later⟩ := chain
      obtain ⟨left, split⟩ := prefixes start items served
      have dropped : all.drop (start + items.length) = left := by
        rw [← List.drop_drop, ← split, List.drop_left]
      rw [List.flatten_cons, ← split]
      exact (List.prefix_append_right_inj items).mpr (dropped ▸ ih later)

/-- Enough pages serve everything, if none is empty before the end. -/
theorem Chain.complete (chain : Chain page start pages)
    (prefixes : ∀ start items, page start items → items <+: all.drop start)
    (progress : ∀ start, page start [] → all.drop start = [])
    (enough : (all.drop start).length ≤ pages.length) : pages.flatten = all.drop start := by
  induction pages generalizing start with
  | nil => exact (List.eq_nil_of_length_eq_zero (Nat.le_zero.mp enough)).symm
  | cons items rest ih =>
      obtain ⟨served, later⟩ := chain
      obtain ⟨left, split⟩ := prefixes start items served
      have dropped : all.drop (start + items.length) = left := by
        rw [← List.drop_drop, ← split, List.drop_left]
      cases items with
      | nil =>
          have ended := progress start served
          have nothing := (Chain.isPrefix later prefixes).length_le
          rw [List.length_nil, Nat.add_zero, ended, List.length_nil] at nothing
          rw [ended, List.flatten_cons, List.nil_append]
          exact List.eq_nil_of_length_eq_zero (Nat.le_zero.mp nothing)
      | cons first others =>
          have shorter : left.length ≤ rest.length := by
            rw [← split] at enough
            simp at enough
            omega
          rw [List.flatten_cons, ← split, ih later (dropped ▸ shorter), dropped]

/-- What is kept is the rest from some place on. -/
theorem filter_eq_drop {keep : α → Bool}
    (kept : ∀ index item, all[index]? = some item → (keep item = true ↔ start ≤ index)) :
    all.filter keep = all.drop start := by
  have before : (all.take start).filter keep = [] := by
    refine List.filter_eq_nil_iff.mpr fun item member => ?_
    obtain ⟨index, here⟩ := List.getElem?_of_mem member
    rw [List.getElem?_take] at here
    split at here
    · rename_i below
      rw [kept index item here]
      omega
    · cases here
  have after : (all.drop start).filter keep = all.drop start := by
    refine List.filter_eq_self.mpr fun item member => ?_
    obtain ⟨index, here⟩ := List.getElem?_of_mem member
    rw [List.getElem?_drop] at here
    exact (kept (start + index) item here).mpr (Nat.le_add_right start index)
  calc
    all.filter keep = (all.take start ++ all.drop start).filter keep := by
      rw [List.take_append_drop]
    _ = all.drop start := by rw [List.filter_append, before, after, List.nil_append]

section Read

variable {β : Type} {read : α → Option β} {values : List β}

theorem map_of_readable (readable : ∀ item ∈ all, (read item).isSome = true) :
    all.map read = (all.filterMap read).map some := by
  induction all with
  | nil => rfl
  | cons item rest ih =>
      obtain ⟨value, found⟩ := Option.isSome_iff_exists.mp (readable item List.mem_cons_self)
      have others := ih fun other member => readable other (List.mem_cons_of_mem item member)
      simp only [List.map_cons, List.filterMap_cons, found, others]

end Read

end Paging
