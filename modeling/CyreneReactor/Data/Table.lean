import Mathlib.Data.List.Pairwise
import Mathlib.Tactic.ByContra

namespace Relational

/-! Tables with uniqueness constraints.

`clash` says that two rows share a value some PRIMARY KEY or UNIQUE constraint
keeps apart.  Rows are kept in insertion order, so replacing a row also moves it
to the end, as `INSERT OR REPLACE` does with its row id.
-/

structure Table (α : Type) (clash : α → α → Bool) where
  rows : List α
  distinct : rows.Pairwise fun earlier later => clash earlier later = false

namespace Table

variable {α : Type} {clash : α → α → Bool} (table : Table α clash) (row : α)

def empty : Table α clash := ⟨[], .nil⟩

def find? (wanted : α → Bool) : Option α := table.rows.find? wanted

/-- `INSERT OR REPLACE`: every row that clashes with the new one is deleted. -/
def insertOrReplace : Table α clash where
  rows := table.rows.filter (fun old => !clash old row) ++ [row]
  distinct := by
    refine List.pairwise_append.mpr ⟨table.distinct.filter _, List.pairwise_singleton _ _, ?_⟩
    intro old member new isNew
    cases List.mem_singleton.mp isNew
    simpa using (List.mem_filter.mp member).2

/-- `INSERT`: refused when a row clashes with the new one. -/
def insert? : Option (Table α clash) :=
  if free : ∀ old ∈ table.rows, clash old row = false then
    some
      { rows := table.rows ++ [row]
        distinct := List.pairwise_append.mpr ⟨table.distinct, List.pairwise_singleton _ _,
          fun old member new isNew => by
            cases List.mem_singleton.mp isNew
            exact free old member⟩ }
  else none

/-- `INSERT OR IGNORE`: a row that clashes with an old one is dropped. -/
def insertOrIgnore : Table α clash := (table.insert? row).getD table

/-- `UPDATE`: rows change where they stand, and no two of them come to clash. -/
def modify (change : α → α)
    (apart : ∀ left right, clash left right = false → clash (change left) (change right) = false) :
    Table α clash where
  rows := table.rows.map change
  distinct := table.distinct.map change apart

variable {table row} {wanted : α → Bool}

theorem mem_insertOrReplace {old : α} :
    old ∈ (table.insertOrReplace row).rows ↔
      (old ∈ table.rows ∧ clash old row = false) ∨ old = row := by
  simp [insertOrReplace]

theorem find?_insertOrReplace_hit (hit : wanted row = true)
    (covered : ∀ old ∈ table.rows, wanted old = true → clash old row = true) :
    (table.insertOrReplace row).find? wanted = some row := by
  have gone : (table.rows.filter fun old => !clash old row).find? wanted = none := by
    rw [List.find?_eq_none]
    intro old member found
    obtain ⟨present, kept⟩ := List.mem_filter.mp member
    simp [covered old present found] at kept
  simp [find?, insertOrReplace, List.find?_append, gone, hit]

theorem find?_insertOrReplace_miss (miss : wanted row = false)
    (kept : ∀ old, table.find? wanted = some old → clash old row = false) :
    (table.insertOrReplace row).find? wanted = table.find? wanted := by
  have same : (table.rows.filter fun old => !clash old row).find? wanted =
      table.rows.find? wanted := by
    have kept' : ∀ old, table.rows.find? wanted = some old → clash old row = false := kept
    generalize table.rows = rows at kept' ⊢
    induction rows with
    | nil => rfl
    | cons head tail ih =>
        cases matched : wanted head with
        | true =>
            have here := kept' head (by simp [matched])
            simp [here, matched]
        | false =>
            have rest := ih fun old found => kept' old (by simpa [matched] using found)
            cases removed : clash head row <;> simp [removed, matched, rest]
  simp only [find?, insertOrReplace, List.find?_append, same]
  simp [miss]

theorem insert?_rows {next : Table α clash} (inserted : table.insert? row = some next) :
    next.rows = table.rows ++ [row] ∧ ∀ old ∈ table.rows, clash old row = false := by
  unfold insert? at inserted
  split at inserted
  · rename_i free
    cases inserted
    exact ⟨rfl, free⟩
  · cases inserted

theorem insert?_free (free : ∀ old ∈ table.rows, clash old row = false) :
    ∃ next, table.insert? row = some next ∧ next.rows = table.rows ++ [row] := by
  unfold insert?
  rw [dif_pos free]
  exact ⟨_, rfl, rfl⟩

theorem insertOrIgnore_rows_of_free (free : ∀ old ∈ table.rows, clash old row = false) :
    (table.insertOrIgnore row).rows = table.rows ++ [row] := by
  obtain ⟨next, inserted, rows⟩ := insert?_free free
  simp only [insertOrIgnore, inserted, Option.getD_some, rows]

theorem insertOrIgnore_of_clash {old : α} (member : old ∈ table.rows)
    (clashes : clash old row = true) : table.insertOrIgnore row = table := by
  cases inserted : table.insert? row with
  | none => simp only [insertOrIgnore, inserted, Option.getD_none]
  | some next =>
      have free := (insert?_rows inserted).2 old member
      rw [clashes] at free
      cases free

theorem find?_mem {found : α} (lookup : table.find? wanted = some found) :
    found ∈ table.rows ∧ wanted found = true :=
  ⟨List.mem_of_find?_eq_some lookup, List.find?_some lookup⟩

/-- Two rows of a table that clash are one row, when clashing is symmetric. -/
theorem eq_of_clash (symmetric : ∀ left right, clash left right = clash right left)
    {left right : α} (first : left ∈ table.rows) (second : right ∈ table.rows)
    (clashes : clash left right = true) : left = right := by
  have symm : Std.Symm fun left right => clash left right = false :=
    ⟨fun _ _ apart => (symmetric _ _).trans apart⟩
  by_contra different
  have apart := table.distinct.forall first second different
  rw [clashes] at apart
  cases apart

end Table

end Relational
