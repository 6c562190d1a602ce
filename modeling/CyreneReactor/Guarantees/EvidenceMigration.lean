import CyreneReactor.Legacy.Migration
import Mathlib.Data.List.Forall2

namespace CyreneReactor.Legacy

/-! What opening the store over a legacy database has to leave behind, and the
databases over which it does.
-/

/-- One document before and after. -/
structure DocumentMigrated (validateFields : Members → Option Deployment)
    (before after : Members) : Prop where
  parses : ∀ deployment, modelValidate validateFields (.obj (withoutRef before)) = some deployment →
    modelValidate validateFields (.obj after) = some deployment
  dropped : JsonValue.member? after executionRefKey = none
  unchanged : withoutRef after = withoutRef before

structure Migrated (validateFields : Members → Option Deployment) (db opened : Database) :
    Prop where
  documents : List.Forall₂ (fun old new => new.id = old.id ∧ ∃ before after,
    old.document = .obj before ∧ new.document = .obj after ∧
      DocumentMigrated validateFields before after) db.deployments.rows opened.deployments.rows
  recorded : ∀ row ∈ db.deployments.rows, ∀ members, row.document = .obj members →
    ∀ executionRef, JsonValue.member? members executionRefKey = some (.str executionRef) →
      executionRef ≠ "" →
      opened.getExecutionRef row.id = some ((db.getExecutionRef row.id).getD executionRef)
  kept : ∀ id executionRef, db.getExecutionRef id = some executionRef →
    opened.getExecutionRef id = some executionRef
  settled : opened.migrateExecutionEvidence = .ok opened

/-- The key is absent or holds a non-empty string. -/
def RefMovable (members : Members) : Prop :=
  ∀ value, JsonValue.member? members executionRefKey = some value →
    ∃ executionRef, value = .str executionRef ∧ executionRef ≠ ""

theorem refMovable_iff {members : Members} : RefMovable members ↔
    JsonValue.member? members executionRefKey = none ∨ (poppedRef members).isSome := by
  unfold RefMovable poppedRef
  cases JsonValue.member? members executionRefKey with
  | none => simp
  | some value =>
      cases value with
      | str text => by_cases blank : text = "" <;> simp [blank]
      | _ => simp

theorem poppedRef_eq_some {members : Members} {executionRef : String}
    (held : JsonValue.member? members executionRefKey = some (.str executionRef))
    (named : executionRef ≠ "") : poppedRef members = some executionRef := by
  simp [poppedRef, held, named]

/-- A document that keeps the key has one more field than `Deployment` allows. -/
theorem modelValidate_of_kept {validateFields : Members → Option Deployment} {members : Members}
    (kept : (JsonValue.member? members executionRefKey).isSome) :
    modelValidate validateFields (.obj members) = none := by
  have unknown : ¬ members.all fun member => member.1 ∈ deploymentKeys := by
    intro known
    obtain ⟨member, inMembers, key⟩ : ∃ member ∈ members, member.1 = executionRefKey := by
      simpa [JsonValue.member?] using kept
    have allowed := List.all_eq_true.mp known member inMembers
    rw [key] at allowed
    simp [executionRefKey, deploymentKeys] at allowed
  simp only [modelValidate, if_neg unknown]

variable {validateFields : Members → Option Deployment} {db opened : Database}

/-- The document of a row, migrated: it is as it has to be exactly when the key
was movable. -/
theorem documentMigrated_iff {row : DeploymentRow} {before after : Members}
    (document : row.document = .obj before) (migrated : row.migrated.document = .obj after) :
    DocumentMigrated validateFields before after ↔ RefMovable before := by
  rw [refMovable_iff]
  rcases row.migrated_of_object document with ⟨same, unmoved⟩ | ⟨stripped, moved⟩
  · obtain rfl : before = after := JsonValue.obj.inj (same.symm.trans migrated)
    constructor
    · exact fun whole => .inl whole.dropped
    · intro movable
      have absent : JsonValue.member? before executionRefKey = none := by
        simpa [unmoved] using movable
      exact ⟨by simp [withoutRef_of_absent absent], absent, rfl⟩
  · obtain rfl : withoutRef before = after := JsonValue.obj.inj (stripped.symm.trans migrated)
    constructor
    · exact fun _ => .inr moved
    · exact fun _ => ⟨fun _ parsed => parsed, withoutRef_fresh before, withoutRef_idem before⟩

/-- Opening the store migrates a legacy database as it should if and only if every
deployment document lacks the key or holds a non-empty string under it. -/
theorem migrated_iff (opens : db.migrateExecutionEvidence = .ok opened) :
    Migrated validateFields db opened ↔
      ∀ row ∈ db.deployments.rows, ∀ members, row.document = .obj members →
        RefMovable members := by
  constructor
  · intro whole row member members document
    have documents := whole.documents
    rw [Database.migrate_deployments opens, List.forall₂_map_right_iff,
      List.forall₂_same] at documents
    obtain ⟨-, before, after, old, new, migrated⟩ := documents row member
    obtain rfl : members = before := JsonValue.obj.inj (document.symm.trans old)
    exact (documentMigrated_iff old new).mp migrated
  · intro movable
    refine ⟨?_, ?_, ?_, Database.migrate_settled opens⟩
    · rw [Database.migrate_deployments opens, List.forall₂_map_right_iff, List.forall₂_same]
      intro row member
      obtain ⟨members, document⟩ := Database.migrateRows_objects opens row member
      obtain ⟨after, migrated⟩ := row.migrated_object document
      exact ⟨row.migrated_id, members, after, document, migrated,
        (documentMigrated_iff document migrated).mpr (movable row member members document)⟩
    · intro row member members document executionRef held named
      have moved : row.movedRef = some executionRef := by
        simpa [DeploymentRow.movedRef, document] using poppedRef_eq_some held named
      have found : db.deployments.find? (fun other => other.id == row.id) = some row := by
        obtain ⟨other, lookup⟩ : ∃ other,
            db.deployments.find? (fun other => other.id == row.id) = some other :=
          Option.isSome_iff_exists.mp (List.find?_isSome.mpr ⟨row, member, by simp⟩)
        obtain ⟨inRows, same⟩ := Relational.Table.find?_mem lookup
        rw [lookup, Database.eq_of_id inRows member (by simpa using same)]
      rw [Database.migrate_getExecutionRef opens, found, Option.bind_some, moved]
      cases db.getExecutionRef row.id <;> rfl
    · intro id executionRef present
      rw [Database.migrate_getExecutionRef opens, present, Option.some_or]

theorem mapM_isSome_iff {α β : Type} {parse : α → Option β} {rows : List α} :
    (rows.mapM parse).isSome ↔ ∀ row ∈ rows, (parse row).isSome := by
  induction rows with
  | nil => simp
  | cons row rest ih =>
      cases parsed : parse row with
      | none => simp [List.mapM_cons, parsed]
      | some value =>
          rw [List.forall_mem_cons, ← ih]
          cases others : rest.mapM parse <;> simp [List.mapM_cons, parsed, others]

/-- Every listing fails after an upgrade that left one key behind, and works after
one that left none. -/
theorem listDeployments_isSome_iff (opens : db.migrateExecutionEvidence = .ok opened)
    (valid : ∀ row ∈ db.deployments.rows, ∀ members, row.document = .obj members →
      (modelValidate validateFields (.obj (withoutRef members))).isSome) :
    (opened.listDeployments validateFields).isSome ↔
      ∀ row ∈ db.deployments.rows, ∀ members, row.document = .obj members →
        RefMovable members := by
  simp only [Database.listDeployments, mapM_isSome_iff, List.mem_reverse,
    Database.migrate_deployments opens, List.forall_mem_map]
  apply forall₂_congr
  intro row member
  obtain ⟨before, document⟩ := Database.migrateRows_objects opens row member
  obtain ⟨after, migrated⟩ := row.migrated_object document
  have whole : DocumentMigrated validateFields before after ↔ RefMovable before :=
    documentMigrated_iff document migrated
  simp only [document, JsonValue.obj.injEq, forall_eq', migrated]
  rw [← whole]
  constructor
  · intro parses
    have dropped : JsonValue.member? after executionRefKey = none := by
      by_contra held
      rw [modelValidate_of_kept (Option.isSome_iff_ne_none.mpr held)] at parses
      cases parses
    rcases row.migrated_of_object document with ⟨same, unmoved⟩ | ⟨stripped, moved⟩
    · obtain rfl : before = after := JsonValue.obj.inj (same.symm.trans migrated)
      exact whole.mpr (refMovable_iff.mpr (.inl dropped))
    · exact whole.mpr (refMovable_iff.mpr (.inr moved))
  · intro whole
    obtain ⟨deployment, parsed⟩ := Option.isSome_iff_exists.mp (valid row member before document)
    simp [whole.parses deployment parsed]

def hexA : String := String.ofList (List.replicate 64 'a')

/-- The document of the migration test, as an earlier release wrote it. -/
def legacyDocument (executionRef : JsonValue) : Members :=
  [("id", .str "11111111-1111-4111-8111-111111111111"), ("name", .str "legacy"),
    ("modelArtifact", .obj [("uri", .str ("artifact://sha256/" ++ hexA)),
      ("digest", .str ("sha256:" ++ hexA)), ("size_bytes", .int 0), ("kind", .str "model")]),
    ("desiredState", .str "ACTIVE"), ("observedState", .str "READY"),
    ("servingBindingId", .str "local-process-serving"),
    ("servingCapabilityType", .str "execution.engine.v1"), ("engineExecutionRef", executionRef),
    ("endpointId", .str "22222222-2222-4222-8222-222222222222"),
    ("createdAt", .str "2026-09-01T00:00:00Z"), ("updatedAt", .str "2026-09-01T00:00:00Z"),
    ("resourceVersion", .int 2)]

/-- The deployment its other fields describe. -/
def legacyDeployment : Deployment where
  id := ⟨0x11111111111141118111111111111111⟩
  name := "legacy"
  modelArtifact := some ⟨"artifact://sha256/" ++ hexA, "sha256:" ++ hexA, 0, .model, none⟩
  composition := .fullModel
  modelVersion := none
  desiredState := .active
  observedState := .ready
  servingBindingId := "local-process-serving"
  nodeRef := none
  endpointId := some ⟨0x22222222222242228222222222222222⟩
  failure := none
  createdAt := ⟨2026, 9, 1, 0, 0, 0, 0⟩
  updatedAt := ⟨2026, 9, 1, 0, 0, 0, 0⟩
  resourceVersion := 2
  validated := ⟨rfl, rfl⟩

/-- Field validation as far as the one document goes. -/
def legacyFields (members : Members) : Option Deployment :=
  if JsonValue.member? members "name" matches some (.str "legacy") then some legacyDeployment
  else none

def legacyDatabase (executionRef : JsonValue) : Database :=
  ⟨⟨[⟨"11111111-1111-4111-8111-111111111111", .obj (legacyDocument executionRef)⟩],
    List.pairwise_singleton _ _⟩, .empty⟩

theorem legacyDatabase_opens (executionRef : JsonValue) :
    ∃ opened, (legacyDatabase executionRef).migrateExecutionEvidence = .ok opened :=
  Database.migrate_opens_iff.mpr (by simp [legacyDatabase])

theorem migrated_iff_referenced :
    ∃ opened, (legacyDatabase (.str "process:1234")).migrateExecutionEvidence = .ok opened ∧
      Migrated legacyFields (legacyDatabase (.str "process:1234")) opened := by
  obtain ⟨opened, opens⟩ := legacyDatabase_opens (.str "process:1234")
  refine ⟨opened, opens, (migrated_iff opens).mpr ?_⟩
  intro row member members document value held
  obtain rfl := List.mem_singleton.mp member
  cases document
  cases held
  exact ⟨_, rfl, by decide⟩

/-- A reference that is null stays in its document, which no longer parses. -/
theorem null_reference_kept :
    ¬ ∀ (validateFields : Members → Option Deployment) (db opened : Database),
      db.migrateExecutionEvidence = .ok opened → Migrated validateFields db opened := by
  intro migrates
  obtain ⟨opened, opens⟩ := legacyDatabase_opens .null
  have documents := (migrates legacyFields _ _ opens).documents
  rw [Database.migrate_deployments opens] at documents
  obtain ⟨⟨-, before, after, old, new, migrated⟩, -⟩ := List.forall₂_cons.mp documents
  cases old
  cases new
  cases migrated.dropped

end CyreneReactor.Legacy
