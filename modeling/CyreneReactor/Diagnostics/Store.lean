import Mathlib.Data.List.Induction
import CyreneReactor.Diagnostics.Text
import CyreneReactor.Store

namespace CyreneReactor.Diagnostics

open Relational

/-! The diagnostics tables: what an append adds, the cursors of the harvest, and the
ordered listing.

Rows are never deleted, so the rows of a deployment are numbered without gaps, and an
append adds its documents at the end.
-/

/-- The rows of one deployment, in the order they were appended. -/
def rowsOf (database : Database) (id : Uuid) : List DiagnosticRow :=
  database.deploymentDiagnostics.rows.filter fun row => row.deploymentId == id

def documentsOf (database : Database) (id : Uuid) : List Members :=
  (rowsOf database id).map DiagnosticRow.document

/-- The rows of each deployment count from zero, and their sequences from one. -/
def Numbered (database : Database) : Prop :=
  ∀ id, (rowsOf database id).map (fun row => (row.recordIndex, row.sequence)) =
    (List.range (rowsOf database id).length).map fun index => (index, index + 1)

/-- The row of document `offset` of an append after `count` rows. -/
def rowAfter (id : Uuid) (count offset : Nat) (document : Members) : DiagnosticRow where
  deploymentId := id
  recordIndex := count + offset
  sequence := count + offset + 1
  document := Database.stampSequence document (count + offset + 1)

section Append

variable {database : Database} {id other : Uuid} {documents : List Members}

theorem foldl_max_range (count : Nat) :
    ((List.range count).map fun index => index + 1).foldl max 0 = count := by
  induction count with
  | zero => rfl
  | succ count ih =>
      rw [List.range_succ, List.map_append, List.foldl_append, ih]
      simp

theorem Numbered.lastSequence (numbered : Numbered database) (id : Uuid) :
    database.lastDiagnosticSequence id = (rowsOf database id).length := by
  have sequences : (rowsOf database id).map DiagnosticRow.sequence =
      (List.range (rowsOf database id).length).map fun index => index + 1 := by
    have second := congrArg (List.map Prod.snd) (numbered id)
    simpa [List.map_map, Function.comp_def] using second
  have folded := foldl_max_range (rowsOf database id).length
  rw [← sequences] at folded
  exact folded

theorem Numbered.recordIndex_lt (numbered : Numbered database) {row : DiagnosticRow}
    (member : row ∈ database.deploymentDiagnostics.rows) :
    row.recordIndex < (rowsOf database row.deploymentId).length := by
  have mine : row ∈ rowsOf database row.deploymentId := List.mem_filter.mpr ⟨member, by simp⟩
  have numbers : (row.recordIndex, row.sequence) ∈ (rowsOf database row.deploymentId).map
      (fun row => (row.recordIndex, row.sequence)) := List.mem_map_of_mem mine
  rw [numbered row.deploymentId] at numbers
  obtain ⟨index, bound, same⟩ := List.mem_map.mp numbers
  simp only [Prod.mk.injEq] at same
  have below := List.mem_range.mp bound
  omega

/-- Rows that clash with nothing are added at the end. -/
theorem foldl_insertOrReplace (table : Table DiagnosticRow DiagnosticRow.clash) (count : Nat)
    (below : ∀ row ∈ table.rows, row.deploymentId = id → row.recordIndex < count)
    (documents : List Members) :
    ((documents.mapIdx (rowAfter id count)).foldl Table.insertOrReplace table).rows =
      table.rows ++ documents.mapIdx (rowAfter id count) := by
  induction documents using List.reverseRecOn with
  | nil => simp
  | append_singleton initial last ih =>
      rw [List.mapIdx_concat, List.foldl_append, List.foldl_cons, List.foldl_nil,
        ← List.append_assoc, ← ih]
      simp only [Table.insertOrReplace]
      congr 1
      refine List.filter_eq_self.mpr fun row member => ?_
      rw [ih] at member
      by_cases same : row.deploymentId = id
      · have apart : row.recordIndex ≠ count + initial.length := by
          rcases List.mem_append.mp member with old | new
          · have bound := below row old same
            omega
          · obtain ⟨index, bound, rfl⟩ := List.mem_iff_getElem.mp new
            simp only [List.length_mapIdx] at bound
            simp only [List.getElem_mapIdx, rowAfter]
            omega
        simp [DiagnosticRow.clash, rowAfter, apart]
      · simp [DiagnosticRow.clash, rowAfter, same]

/-- What an append adds. -/
theorem Numbered.rows_append (numbered : Numbered database) :
    (database.appendDeploymentDiagnostics id documents).deploymentDiagnostics.rows =
      database.deploymentDiagnostics.rows ++
        documents.mapIdx (rowAfter id (rowsOf database id).length) := by
  have counted : database.deploymentDiagnosticsCount id = (rowsOf database id).length := rfl
  simp only [Database.appendDeploymentDiagnostics, numbered.lastSequence, counted]
  refine foldl_insertOrReplace database.deploymentDiagnostics _ (fun row member same => ?_) documents
  rw [← same]
  exact numbered.recordIndex_lt member

theorem Numbered.rowsOf_append (numbered : Numbered database) :
    rowsOf (database.appendDeploymentDiagnostics id documents) id =
      rowsOf database id ++ documents.mapIdx (rowAfter id (rowsOf database id).length) := by
  unfold rowsOf
  rw [numbered.rows_append, List.filter_append]
  congr 1
  refine List.filter_eq_self.mpr fun row member => ?_
  obtain ⟨index, bound, rfl⟩ := List.mem_iff_getElem.mp member
  simp [rowAfter]

theorem Numbered.rowsOf_append_other (numbered : Numbered database) (different : other ≠ id) :
    rowsOf (database.appendDeploymentDiagnostics id documents) other = rowsOf database other := by
  unfold rowsOf
  rw [numbered.rows_append, List.filter_append]
  refine List.append_right_eq_self.mpr (List.filter_eq_nil_iff.mpr fun row member => ?_)
  obtain ⟨index, bound, rfl⟩ := List.mem_iff_getElem.mp member
  simpa [rowAfter] using different.symm

theorem Numbered.append (numbered : Numbered database) :
    Numbered (database.appendDeploymentDiagnostics id documents) := by
  intro owner
  by_cases same : owner = id
  · subst same
    rw [numbered.rowsOf_append, List.map_append, numbered owner, List.length_append,
      List.length_mapIdx, List.range_add, List.map_append]
    congr 1
    refine List.ext_getElem (by simp) fun index _ _ => ?_
    simp [rowAfter]
  · rw [numbered.rowsOf_append_other same]
    exact numbered owner

theorem numbered_empty : Numbered .empty := fun _ => rfl

/-- Sequences grow from row to row. -/
theorem Numbered.ordered (numbered : Numbered database) (id : Uuid) :
    (rowsOf database id).Pairwise fun earlier later => earlier.sequence < later.sequence := by
  have sequences : (rowsOf database id).map DiagnosticRow.sequence =
      (List.range (rowsOf database id).length).map fun index => index + 1 := by
    have second := congrArg (List.map Prod.snd) (numbered id)
    simpa [List.map_map, Function.comp_def] using second
  rw [← List.pairwise_map, sequences, List.pairwise_map]
  exact List.pairwise_lt_range.imp fun below => by omega

end Append

section Growth

variable {database : Database} {id other : Uuid} {documents : List Members}

theorem foldl_max_le {values : List Nat} {first bound : Nat} :
    values.foldl max first ≤ bound ↔ first ≤ bound ∧ ∀ value ∈ values, value ≤ bound := by
  induction values generalizing first with
  | nil => simp
  | cons value rest ih => rw [List.foldl_cons, ih, Nat.max_le, List.forall_mem_cons, and_assoc]

theorem last_le_iff {bound : Nat} : database.lastDiagnosticSequence id ≤ bound ↔
    ∀ row ∈ database.deploymentDiagnostics.rows, row.deploymentId = id → row.sequence ≤ bound := by
  rw [Database.lastDiagnosticSequence, foldl_max_le, List.forall_mem_map]
  simp [List.mem_filter]

/-- A deployment's last sequence is a matter of which rows there are. -/
theorem last_congr {left right : Database}
    (same : ∀ row, row ∈ left.deploymentDiagnostics.rows ↔ row ∈ right.deploymentDiagnostics.rows) :
    left.lastDiagnosticSequence id = right.lastDiagnosticSequence id := by
  apply Nat.le_antisymm
  · exact last_le_iff.mpr fun row member => last_le_iff.mp (Nat.le_refl _) row ((same row).mp member)
  · exact last_le_iff.mpr fun row member => last_le_iff.mp (Nat.le_refl _) row ((same row).mpr member)

theorem last_lt_append (some : documents ≠ []) :
    database.lastDiagnosticSequence id <
      (database.appendDeploymentDiagnostics id documents).lastDiagnosticSequence id := by
  obtain ⟨initial, last, rfl⟩ := List.eq_nil_or_concat documents |>.resolve_left some
  rw [← Nat.not_le, last_le_iff]
  intro below
  simp only [Database.appendDeploymentDiagnostics, List.concat_eq_append, List.mapIdx_concat,
    List.foldl_append, List.foldl_cons, List.foldl_nil] at below
  have added := below _ (Table.mem_insertOrReplace.mpr (.inr rfl)) rfl
  simp only at added
  omega

theorem mem_foldl_insertOrReplace {table : Table DiagnosticRow DiagnosticRow.clash}
    {rows : List DiagnosticRow} (foreign : ∀ row ∈ rows, row.deploymentId ≠ id)
    {row : DiagnosticRow} (mine : row.deploymentId = id) :
    row ∈ (rows.foldl Table.insertOrReplace table).rows ↔ row ∈ table.rows := by
  induction rows generalizing table with
  | nil => rfl
  | cons added rest ih =>
      have different := foreign added List.mem_cons_self
      have apart : row.clash added = false := by
        simp only [DiagnosticRow.clash, mine, Bool.and_eq_false_imp, beq_iff_eq]
        exact fun same => absurd same.symm different
      have other : row ≠ added := fun same => different (same ▸ mine)
      rw [List.foldl_cons, ih fun later member => foreign later (List.mem_cons_of_mem _ member),
        Table.mem_insertOrReplace]
      simp [apart, other]

theorem last_append_other (different : other ≠ id) :
    (database.appendDeploymentDiagnostics id documents).lastDiagnosticSequence other =
      database.lastDiagnosticSequence other := by
  have foreign : ∀ row : DiagnosticRow, row.deploymentId = other →
      (row ∈ (database.appendDeploymentDiagnostics id documents).deploymentDiagnostics.rows ↔
        row ∈ database.deploymentDiagnostics.rows) := by
    intro row mine
    apply mem_foldl_insertOrReplace _ mine
    intro added member
    obtain ⟨index, bound, rfl⟩ := List.mem_iff_getElem.mp member
    simpa using different.symm
  apply Nat.le_antisymm
  · exact last_le_iff.mpr fun row member mine =>
      last_le_iff.mp (Nat.le_refl _) row ((foreign row mine).mp member) mine
  · exact last_le_iff.mpr fun row member mine =>
      last_le_iff.mp (Nat.le_refl _) row ((foreign row mine).mpr member) mine

end Growth

structure CursorRow where
  deploymentId : Uuid
  runtimeSequence : Int
deriving DecidableEq, Repr

def CursorRow.clash (old new : CursorRow) : Bool := old.deploymentId == new.deploymentId

abbrev Cursors := Table CursorRow CursorRow.clash

/-- An integer of 64 bits, which a column can hold. -/
def storable (value : Int) : Bool :=
  decide (-9223372036854775808 ≤ value ∧ value < 9223372036854775808)

def runtimeDiagnosticsCursor (cursors : Cursors) (id : Uuid) : Int :=
  ((cursors.find? fun row => row.deploymentId == id).map CursorRow.runtimeSequence).getD 0

def setRuntimeDiagnosticsCursor (cursors : Cursors) (id : Uuid) (sequence : Int) : Cursors :=
  cursors.insertOrReplace ⟨id, sequence⟩

theorem cursor_set (cursors : Cursors) (id : Uuid) (sequence : Int) :
    runtimeDiagnosticsCursor (setRuntimeDiagnosticsCursor cursors id sequence) id = sequence := by
  unfold runtimeDiagnosticsCursor setRuntimeDiagnosticsCursor
  rw [Table.find?_insertOrReplace_hit (by simp)]
  · rfl
  · intro old _ mine
    simpa [CursorRow.clash] using mine

theorem cursor_set_other (cursors : Cursors) {id other : Uuid} (sequence : Int)
    (different : other ≠ id) :
    runtimeDiagnosticsCursor (setRuntimeDiagnosticsCursor cursors id sequence) other =
      runtimeDiagnosticsCursor cursors other := by
  unfold runtimeDiagnosticsCursor setRuntimeDiagnosticsCursor
  rw [Table.find?_insertOrReplace_miss (by simpa using different.symm)]
  intro old found
  have mine : old.deploymentId = other := by simpa using (Table.find?_mem found).2
  simp [CursorRow.clash, mine, different]

/-- `list_deployment_diagnostics`: at most 500 documents after a sequence. -/
def listDeploymentDiagnostics (database : Database) (id : Uuid) (afterSequence limit : Int) :
    List Members :=
  let bounded := max 1 (min limit 500)
  let found := (rowsOf database id).filter fun row => decide (afterSequence < row.sequence)
  let ordered := found.mergeSort fun left right => decide (left.sequence ≤ right.sequence)
  (ordered.take bounded.toNat).map DiagnosticRow.document

end CyreneReactor.Diagnostics
