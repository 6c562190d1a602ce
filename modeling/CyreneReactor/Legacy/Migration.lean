import CyreneReactor.Data.Table
import CyreneReactor.Domain

namespace CyreneReactor.Legacy

open Relational

/-! Opening the store over a database an earlier release wrote: the deployment
documents as they stand in their rows, and `_migrate_execution_evidence`, which
moves their execution references into the private evidence table.
-/

abbrev Members := List (String × JsonValue)

structure DeploymentRow where
  id : String
  document : JsonValue

def DeploymentRow.clash (old new : DeploymentRow) : Bool := old.id == new.id

structure EvidenceRow where
  deploymentId : String
  executionRef : String
deriving DecidableEq

def EvidenceRow.clash (old new : EvidenceRow) : Bool := old.deploymentId == new.deploymentId

structure Database where
  deployments : Table DeploymentRow DeploymentRow.clash
  executionEvidence : Table EvidenceRow EvidenceRow.clash

def executionRefKey : String := "engineExecutionRef"

/-- What `dict.pop` leaves of a document. -/
def withoutRef (members : Members) : Members :=
  members.filter fun member => member.1 != executionRefKey

/-- The popped value when it is a non-empty string. -/
def poppedRef (members : Members) : Option String :=
  match JsonValue.member? members executionRefKey with
  | some (.str executionRef) => if executionRef = "" then none else some executionRef
  | _ => none

namespace Database

variable (db : Database)

def getExecutionRef (deploymentId : String) : Option String :=
  (db.executionEvidence.find? fun row => row.deploymentId == deploymentId).map
    EvidenceRow.executionRef

/-- `UPDATE deployments SET document = ? WHERE id = ?` -/
def updateDocument (id : String) (document : JsonValue) : Database :=
  { db with
    deployments := db.deployments.modify
      (fun row => if row.id = id then { row with document } else row)
      (by
        intro left right apart
        split <;> split <;> exact apart) }

/-- The body of the loop for one row of the snapshot.  A document that is no
object has no `pop` that takes a default. -/
def migrateRow (row : DeploymentRow) : Except ExceptionKind Database :=
  match row.document with
  | .obj members =>
      match poppedRef members with
      | none => .ok db
      | some executionRef =>
          .ok ({ db with
            executionEvidence := db.executionEvidence.insertOrIgnore ⟨row.id, executionRef⟩
          }.updateDocument row.id (.obj (withoutRef members)))
  | .arr _ => .error .typeError
  | _ => .error .attributeError

def migrateRows : Database → List DeploymentRow → Except ExceptionKind Database
  | db, [] => .ok db
  | db, row :: rest =>
      match db.migrateRow row with
      | .error kind => .error kind
      | .ok next => next.migrateRows rest

/-- `_migrate_execution_evidence`: every row is fetched before the first is rewritten. -/
def migrateExecutionEvidence : Except ExceptionKind Database :=
  db.migrateRows db.deployments.rows

end Database

/-- The keys `Deployment` knows: the alias of every field, and its name. -/
def deploymentKeys : List String :=
  ["id", "name", "modelArtifact", "model_artifact", "composition", "modelVersion",
    "model_version", "desiredState", "desired_state", "observedState", "observed_state",
    "servingBindingId", "serving_binding_id", "nodeRef", "node_ref", "servingCapabilityType",
    "serving_capability_type", "endpointId", "endpoint_id", "failure", "createdAt",
    "created_at", "updatedAt", "updated_at", "resourceVersion", "resource_version"]

/-- `Deployment.model_validate_json`, with `extra="forbid"`; `validateFields` stands
for the validation of the fields themselves. -/
def modelValidate (validateFields : Members → Option Deployment) :
    JsonValue → Option Deployment
  | .obj members =>
      if members.all fun member => member.1 ∈ deploymentKeys then validateFields members else none
  | _ => none

/-- `list_deployments`; `none` when one row does not parse. -/
def Database.listDeployments (db : Database) (validateFields : Members → Option Deployment) :
    Option (List Deployment) :=
  db.deployments.rows.reverse.mapM fun row => modelValidate validateFields row.document

/-- A row after its own turn of the loop. -/
def DeploymentRow.migrated (row : DeploymentRow) : DeploymentRow :=
  match row.document with
  | .obj members =>
      match poppedRef members with
      | none => row
      | some _ => { row with document := .obj (withoutRef members) }
  | _ => row

/-- The reference a row has to move. -/
def DeploymentRow.movedRef (row : DeploymentRow) : Option String :=
  match row.document with
  | .obj members => poppedRef members
  | _ => none

@[simp] theorem DeploymentRow.migrated_id (row : DeploymentRow) : row.migrated.id = row.id := by
  unfold migrated
  split
  · split <;> rfl
  · rfl

theorem withoutRef_fresh (members : Members) :
    JsonValue.member? (withoutRef members) executionRefKey = none := by
  simp [JsonValue.member?, withoutRef]

theorem withoutRef_idem (members : Members) :
    withoutRef (withoutRef members) = withoutRef members := by
  simp [withoutRef]

theorem withoutRef_of_absent {members : Members}
    (absent : JsonValue.member? members executionRefKey = none) : withoutRef members = members := by
  simpa [JsonValue.member?, withoutRef] using absent

namespace Database

variable {db next : Database} {row : DeploymentRow} {rows : List DeploymentRow}

theorem clash_false_iff {left right : DeploymentRow} :
    left.clash right = false ↔ left.id ≠ right.id := by
  simp [DeploymentRow.clash]

theorem eq_of_id {left right : DeploymentRow} (first : left ∈ db.deployments.rows)
    (second : right ∈ db.deployments.rows) (same : left.id = right.id) : left = right :=
  Table.eq_of_clash (fun _ _ => by simp only [DeploymentRow.clash, Bool.beq_comm]) first second
    (by simpa [DeploymentRow.clash] using same)

/-- One turn of the loop, in the two tables it touches. -/
theorem migrateRow_ok (opened : db.migrateRow row = .ok next) :
    next.deployments.rows = db.deployments.rows.map (fun old =>
      if old.id = row.id ∧ row.movedRef.isSome then
        { old with document := row.migrated.document } else old) ∧
    next.executionEvidence = (match row.movedRef with
      | none => db.executionEvidence
      | some executionRef => db.executionEvidence.insertOrIgnore ⟨row.id, executionRef⟩) := by
  obtain ⟨id, document⟩ := row
  cases document with
  | obj members =>
      cases popped : poppedRef members with
      | none =>
          simp only [migrateRow, popped, Except.ok.injEq] at opened
          subst opened
          simp [DeploymentRow.movedRef, popped]
      | some executionRef =>
          simp only [migrateRow, popped, Except.ok.injEq] at opened
          subst opened
          simp [DeploymentRow.movedRef, DeploymentRow.migrated, popped, updateDocument,
            Table.modify]
  | _ => cases opened

theorem getExecutionRef_insertOrIgnore (db : Database) (row : EvidenceRow) (id : String) :
    ({ db with executionEvidence := db.executionEvidence.insertOrIgnore row }).getExecutionRef id =
      (db.getExecutionRef id).or
        (if row.deploymentId = id then some row.executionRef else none) := by
  by_cases free : ∀ old ∈ db.executionEvidence.rows, old.clash row = false
  · simp only [getExecutionRef, Table.find?, Table.insertOrIgnore_rows_of_free free,
      List.find?_append]
    by_cases here : row.deploymentId = id <;>
      cases db.executionEvidence.rows.find? fun old => old.deploymentId == id <;>
      simp [here]
  · simp only [not_forall, Bool.not_eq_false] at free
    obtain ⟨old, member, clashes⟩ := free
    rw [Table.insertOrIgnore_of_clash member clashes]
    by_cases here : row.deploymentId = id
    · -- the old row of this deployment answers the lookup
      have found : (db.getExecutionRef id).isSome := by
        simp only [getExecutionRef, Option.isSome_map, Table.find?, List.find?_isSome]
        exact ⟨old, member, by simpa [EvidenceRow.clash, here] using clashes⟩
      obtain ⟨executionRef, present⟩ := Option.isSome_iff_exists.mp found
      have kept : ({ db with executionEvidence := db.executionEvidence } : Database) = db := rfl
      rw [kept, present, Option.some_or]
    · simp [here, getExecutionRef]

/-- Evidence that was there stays; the rest is what the rows move, first come first. -/
theorem migrateRows_getExecutionRef (opened : db.migrateRows rows = .ok next) (id : String) :
    next.getExecutionRef id = (db.getExecutionRef id).or
      (rows.findSome? fun row => if row.id = id then row.movedRef else none) := by
  induction rows generalizing db with
  | nil =>
      cases opened
      simp
  | cons row rest ih =>
      unfold migrateRows at opened
      cases turn : db.migrateRow row with
      | error kind => simp [turn] at opened
      | ok middle =>
          simp only [turn] at opened
          obtain ⟨-, evidence⟩ := migrateRow_ok turn
          have here : middle.getExecutionRef id = (db.getExecutionRef id).or
              (if row.id = id then row.movedRef else none) := by
            cases moved : row.movedRef with
            | none =>
                rw [moved] at evidence
                simp [getExecutionRef, evidence]
            | some executionRef =>
                rw [moved] at evidence
                have inserted := getExecutionRef_insertOrIgnore db ⟨row.id, executionRef⟩ id
                simp only [getExecutionRef, evidence] at inserted ⊢
                exact inserted
          rw [ih opened, here, Option.or_assoc, List.findSome?_cons]
          by_cases same : row.id = id
          · cases moved : row.movedRef <;> simp [same]
          · simp [same]

/-- What the remaining rows of the snapshot make of one row of the table. -/
def rewritten (rows : List DeploymentRow) (old : DeploymentRow) : DeploymentRow :=
  rows.foldl (fun current row =>
    if current.id = row.id ∧ row.movedRef.isSome then
      { current with document := row.migrated.document } else current) old

theorem migrateRows_deployments (opened : db.migrateRows rows = .ok next) :
    next.deployments.rows = db.deployments.rows.map (rewritten rows) := by
  induction rows generalizing db with
  | nil =>
      cases opened
      exact (List.map_id _).symm
  | cons row rest ih =>
      unfold migrateRows at opened
      cases turn : db.migrateRow row with
      | error kind => simp [turn] at opened
      | ok middle =>
          simp only [turn] at opened
          rw [ih opened, (migrateRow_ok turn).1, List.map_map]
          rfl

theorem rewritten_of_absent {old : DeploymentRow} (absent : ∀ row ∈ rows, row.id ≠ old.id) :
    rewritten rows old = old := by
  induction rows generalizing old with
  | nil => rfl
  | cons row rest ih =>
      have apart : ¬(old.id = row.id ∧ row.movedRef.isSome) := fun both =>
        absent row List.mem_cons_self both.1.symm
      simp only [rewritten, List.foldl_cons, if_neg apart]
      exact ih fun other member => absent other (List.mem_cons_of_mem _ member)

theorem migrated_of_unmoved {row : DeploymentRow} (unmoved : row.movedRef = none) :
    row.migrated = row := by
  obtain ⟨id, document⟩ := row
  cases document with
  | obj members =>
      have popped : poppedRef members = none := unmoved
      simp [DeploymentRow.migrated, popped]
  | _ => rfl

/-- Ids are distinct, so a row meets its own turn of the loop and no other. -/
theorem rewritten_of_mem (distinct : rows.Pairwise fun earlier later =>
      DeploymentRow.clash earlier later = false) {old : DeploymentRow} (member : old ∈ rows) :
    rewritten rows old = old.migrated := by
  induction rows with
  | nil => cases member
  | cons row rest ih =>
      obtain ⟨apart, restDistinct⟩ := List.pairwise_cons.mp distinct
      rcases List.mem_cons.mp member with here | later
      · subst here
        have absent : ∀ other ∈ rest, other.id ≠ old.migrated.id := by
          intro other inRest
          rw [DeploymentRow.migrated_id]
          exact (clash_false_iff.mp (apart other inRest)).symm
        have turn : (if old.id = old.id ∧ old.movedRef.isSome then
            { old with document := old.migrated.document } else old) = old.migrated := by
          cases moved : old.movedRef with
          | none => simpa using (migrated_of_unmoved moved).symm
          | some executionRef =>
              simp only [Option.isSome_some, and_self, if_true]
              nth_rewrite 1 [← old.migrated_id]
              rfl
        calc rewritten (old :: rest) old
            = rewritten rest (if old.id = old.id ∧ old.movedRef.isSome then
                { old with document := old.migrated.document } else old) := rfl
          _ = rewritten rest old.migrated := by rw [turn]
          _ = old.migrated := rewritten_of_absent absent
      · have different : ¬(old.id = row.id ∧ row.movedRef.isSome) := fun both =>
          clash_false_iff.mp (apart old later) both.1.symm
        simp only [rewritten, List.foldl_cons, if_neg different]
        exact ih restDistinct later

/-- Opening rewrites every row by its own turn of the loop. -/
theorem migrate_deployments (opened : db.migrateExecutionEvidence = .ok next) :
    next.deployments.rows = db.deployments.rows.map DeploymentRow.migrated := by
  rw [migrateRows_deployments opened]
  exact List.map_congr_left fun row member => rewritten_of_mem db.deployments.distinct member

theorem migrate_getExecutionRef (opened : db.migrateExecutionEvidence = .ok next) (id : String) :
    next.getExecutionRef id = (db.getExecutionRef id).or
      ((db.deployments.find? fun row => row.id == id).bind DeploymentRow.movedRef) := by
  rw [migrateRows_getExecutionRef opened]
  congr 1
  have distinct := db.deployments.distinct
  simp only [Table.find?]
  generalize db.deployments.rows = rows at distinct
  induction rows with
  | nil => rfl
  | cons row rest ih =>
      obtain ⟨apart, restDistinct⟩ := List.pairwise_cons.mp distinct
      by_cases same : row.id = id
      · have others : rest.findSome? (fun row => if row.id = id then row.movedRef else none) =
            none := by
          rw [List.findSome?_eq_none_iff]
          intro other inRest
          have different := clash_false_iff.mp (apart other inRest)
          rw [if_neg (by rw [← same]; exact different.symm)]
        cases moved : row.movedRef <;> simp [same, moved, others]
      · simp [same, ih restDistinct]

/-- A loop over rows none of which has a reference to move leaves the database alone. -/
theorem migrateRows_settled (objects : ∀ row ∈ rows, ∃ members, row.document = .obj members)
    (unmoved : ∀ row ∈ rows, row.movedRef = none) : db.migrateRows rows = .ok db := by
  induction rows with
  | nil => rfl
  | cons row rest ih =>
      obtain ⟨members, document⟩ := objects row List.mem_cons_self
      have popped : poppedRef members = none := by
        simpa [DeploymentRow.movedRef, document] using unmoved row List.mem_cons_self
      have turn : db.migrateRow row = .ok db := by
        simp only [migrateRow, document, popped]
      simp only [migrateRows, turn]
      exact ih (fun other inRest => objects other (List.mem_cons_of_mem _ inRest))
        (fun other inRest => unmoved other (List.mem_cons_of_mem _ inRest))

theorem migrateRow_object (opened : db.migrateRow row = .ok next) :
    ∃ members, row.document = .obj members := by
  obtain ⟨id, document⟩ := row
  cases document with
  | obj members => exact ⟨members, rfl⟩
  | _ => cases opened

theorem migrateRows_objects (opened : db.migrateRows rows = .ok next) :
    ∀ row ∈ rows, ∃ members, row.document = .obj members := by
  induction rows generalizing db with
  | nil => simp
  | cons row rest ih =>
      unfold migrateRows at opened
      cases turn : db.migrateRow row with
      | error kind => simp [turn] at opened
      | ok middle =>
          simp only [turn] at opened
          intro other member
          rcases List.mem_cons.mp member with here | later
          · exact here ▸ migrateRow_object turn
          · exact ih opened other later

end Database

theorem DeploymentRow.migrated_of_object {row : DeploymentRow} {members : Members}
    (document : row.document = .obj members) :
    row.migrated.document = .obj members ∧ poppedRef members = none ∨
      row.migrated.document = .obj (withoutRef members) ∧ (poppedRef members).isSome := by
  cases popped : poppedRef members with
  | none => exact .inl ⟨by simp [migrated, document, popped], rfl⟩
  | some executionRef => exact .inr ⟨by simp [migrated, document, popped], rfl⟩

theorem DeploymentRow.migrated_object (row : DeploymentRow) {members : Members}
    (document : row.document = .obj members) : ∃ after, row.migrated.document = .obj after := by
  rcases row.migrated_of_object document with ⟨kept, -⟩ | ⟨stripped, -⟩
  · exact ⟨_, kept⟩
  · exact ⟨_, stripped⟩

theorem poppedRef_withoutRef (members : Members) : poppedRef (withoutRef members) = none := by
  simp only [poppedRef, withoutRef_fresh]

theorem DeploymentRow.migrated_unmoved (row : DeploymentRow) : row.migrated.movedRef = none := by
  obtain ⟨id, document⟩ := row
  cases document with
  | obj members =>
      cases popped : poppedRef members with
      | none => simp [migrated, movedRef, popped]
      | some executionRef => simp [migrated, movedRef, popped, poppedRef_withoutRef]
  | _ => rfl

namespace Database

variable {db next : Database} {row : DeploymentRow} {rows : List DeploymentRow}

theorem migrateRows_opens (objects : ∀ row ∈ rows, ∃ members, row.document = .obj members) :
    ∃ next, db.migrateRows rows = .ok next := by
  induction rows generalizing db with
  | nil => exact ⟨db, rfl⟩
  | cons row rest ih =>
      have turn : ∃ middle, db.migrateRow row = .ok middle := by
        obtain ⟨members, document⟩ := objects row List.mem_cons_self
        cases popped : poppedRef members <;> simp [migrateRow, document, popped]
      obtain ⟨middle, turn⟩ := turn
      simp only [migrateRows, turn]
      exact ih fun other inRest => objects other (List.mem_cons_of_mem _ inRest)

/-- The store opens over exactly the databases whose documents are objects. -/
theorem migrate_opens_iff : (∃ next, db.migrateExecutionEvidence = .ok next) ↔
    ∀ row ∈ db.deployments.rows, ∃ members, row.document = .obj members :=
  ⟨fun ⟨_, opened⟩ => migrateRows_objects opened, migrateRows_opens⟩

theorem migrate_settled (opened : db.migrateExecutionEvidence = .ok next) :
    next.migrateExecutionEvidence = .ok next := by
  have objects := migrateRows_objects opened
  apply migrateRows_settled
  · intro row member
    rw [migrate_deployments opened, List.mem_map] at member
    obtain ⟨old, inOld, rfl⟩ := member
    obtain ⟨members, document⟩ := objects old inOld
    exact old.migrated_object document
  · intro row member
    rw [migrate_deployments opened, List.mem_map] at member
    obtain ⟨old, -, rfl⟩ := member
    exact old.migrated_unmoved

end Database

end CyreneReactor.Legacy
