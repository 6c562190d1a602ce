import CyreneReactor.Data.Table
import CyreneReactor.Domain

namespace CyreneReactor

open Relational

/-! The SQLite store of the Product: its tables with their keys, and the
transactions the deployment lifecycle uses.  Every transaction is a function of
the whole database, because SQLite commits it as a whole.
-/

def Deployment.clash (old new : Deployment) : Bool := old.id == new.id

/-- `endpoints` has the primary key `id` and a UNIQUE `deployment_id`. -/
def Endpoint.clash (old new : Endpoint) : Bool :=
  old.id == new.id || old.deploymentId == new.deploymentId

structure ExecutionEvidence where
  deploymentId : Uuid
  executionRef : String
deriving DecidableEq, Repr

def ExecutionEvidence.clash (old new : ExecutionEvidence) : Bool :=
  old.deploymentId == new.deploymentId

structure IdempotencyRow where
  scope : String
  key : String
  requestHash : String
  resourceId : Uuid
deriving DecidableEq, Repr

def IdempotencyRow.clash (old new : IdempotencyRow) : Bool :=
  old.scope == new.scope && old.key == new.key

structure DeploymentEventRow where
  deploymentId : Uuid
  event : DeploymentEvent
deriving DecidableEq, Repr

def DeploymentEventRow.clash (old new : DeploymentEventRow) : Bool :=
  old.deploymentId == new.deploymentId && old.event.sequence == new.event.sequence

/-- A diagnostics document is stored as JSON; only the columns are typed. -/
structure DiagnosticRow where
  deploymentId : Uuid
  recordIndex : Nat
  sequence : Nat
  document : List (String × JsonValue)

def DiagnosticRow.clash (old new : DiagnosticRow) : Bool :=
  old.deploymentId == new.deploymentId && old.recordIndex == new.recordIndex

structure Database where
  deployments : Table Deployment Deployment.clash
  endpoints : Table Endpoint Endpoint.clash
  executionEvidence : Table ExecutionEvidence ExecutionEvidence.clash
  idempotency : Table IdempotencyRow IdempotencyRow.clash
  deploymentEvents : Table DeploymentEventRow DeploymentEventRow.clash
  deploymentDiagnostics : Table DiagnosticRow DiagnosticRow.clash

namespace Database

def empty : Database := ⟨.empty, .empty, .empty, .empty, .empty, .empty⟩

variable (db : Database)

def getDeployment (id : Uuid) : Option Deployment :=
  db.deployments.find? fun row => row.id == id

def getEndpoint (id : Uuid) : Option Endpoint :=
  db.endpoints.find? fun row => row.id == id

def getExecutionRef (deploymentId : Uuid) : Option String :=
  (db.executionEvidence.find? fun row => row.deploymentId == deploymentId).map
    ExecutionEvidence.executionRef

def saveDeployment (deployment : Deployment) : Database :=
  { db with deployments := db.deployments.insertOrReplace deployment }

/-- Both rows, and the execution evidence when there is any, in one transaction. -/
def savePair (deployment : Deployment) (endpoint : Endpoint) (executionRef : Option String) :
    Database :=
  { db with
    deployments := db.deployments.insertOrReplace deployment
    endpoints := db.endpoints.insertOrReplace endpoint
    executionEvidence :=
      match executionRef with
      | none => db.executionEvidence
      | some ref => db.executionEvidence.insertOrReplace ⟨deployment.id, ref⟩ }

def createDeploymentScope : String := "create-deployment"

def findIdempotency (key : String) : Option IdempotencyRow :=
  db.idempotency.find? fun row => row.scope == createDeploymentScope && row.key == key

def idempotencyConflict : ReactorProductError where
  code := "REACTOR_IDEMPOTENCY_CONFLICT"
  title := "Idempotency key conflict"
  detail := "The Idempotency-Key was already used with a different request body."
  status := 409

/-- Resolve a replay or reject a conflicting reuse of the key. -/
def resolveIdempotency (key : Option String) (digest : String) : Except Raised (Option Uuid) :=
  match key with
  | none => .ok none
  | some key =>
      match db.findIdempotency key with
      | none => .ok none
      | some row =>
          if row.requestHash ≠ digest then .error (.product idempotencyConflict)
          else .ok (some row.resourceId)

/-- Persist the intent and its retry identity in one transaction.  A violated
constraint rolls both rows back. -/
def createIntent (deployment : Deployment) (key : Option String) (digest : String) :
    Except Raised (Option Uuid) × Database :=
  match db.resolveIdempotency key digest with
  | .error raised => (.error raised, db)
  | .ok (some replay) => (.ok (some replay), db)
  | .ok none =>
      match db.deployments.insert? deployment with
      | none => (.error (.other .integrityError), db)
      | some deployments =>
          match key with
          | none => (.ok none, { db with deployments })
          | some key =>
              match db.idempotency.insert?
                  ⟨createDeploymentScope, key, digest, deployment.id⟩ with
              | none => (.error (.other .integrityError), db)
              | some idempotency => (.ok none, { db with deployments, idempotency })

/-- What a transaction that admits a new deployment leaves. -/
structure Admits (deployment : Deployment) (key : Option String) (digest : String)
    (after : Database) : Prop where
  fresh : ∀ old ∈ db.deployments.rows, old.id ≠ deployment.id
  deployments : after.deployments.rows = db.deployments.rows ++ [deployment]
  endpoints : after.endpoints = db.endpoints
  executionEvidence : after.executionEvidence = db.executionEvidence
  unused : ∀ used, key = some used → db.findIdempotency used = none
  idempotency : after.idempotency.rows = db.idempotency.rows ++
    (key.map fun used => ⟨createDeploymentScope, used, digest, deployment.id⟩).toList

/-- An intent is admitted as a whole or changes nothing. -/
theorem createIntent_spec (deployment : Deployment) (key : Option String) (digest : String) :
    ((db.createIntent deployment key digest).1 ≠ .ok none ∧
        (db.createIntent deployment key digest).2 = db) ∨
      ((db.createIntent deployment key digest).1 = .ok none ∧
        db.Admits deployment key digest (db.createIntent deployment key digest).2) := by
  unfold createIntent
  split
  · exact .inl ⟨nofun, rfl⟩
  · exact .inl ⟨nofun, rfl⟩
  · rename_i resolved
    split
    · exact .inl ⟨nofun, rfl⟩
    · rename_i deployments inserted
      obtain ⟨rows, apart⟩ := Table.insert?_rows inserted
      have fresh : ∀ old ∈ db.deployments.rows, old.id ≠ deployment.id := by
        simpa [Deployment.clash] using apart
      cases key with
      | none => exact .inr ⟨rfl, fresh, rows, rfl, rfl, nofun, by simp⟩
      | some used =>
          cases remembered : db.idempotency.insert?
              ⟨createDeploymentScope, used, digest, deployment.id⟩ with
          | none =>
              simp only [remembered]
              exact .inl ⟨nofun, trivial⟩
          | some idempotency =>
              simp only [remembered]
              refine .inr ⟨trivial, fresh, rows, rfl, rfl, ?_, (Table.insert?_rows remembered).1⟩
              intro other same
              cases same
              cases found : db.findIdempotency used with
              | none => rfl
              | some row =>
                  simp only [resolveIdempotency, found] at resolved
                  split at resolved <;> cases resolved

/-- An unresolved key and an unused id are enough to admit an intent. -/
theorem createIntent_admits {deployment : Deployment} {key : Option String} {digest : String}
    (unresolved : db.resolveIdempotency key digest = .ok none)
    (fresh : ∀ old ∈ db.deployments.rows, old.id ≠ deployment.id) :
    (db.createIntent deployment key digest).1 = .ok none := by
  have free : ∀ old ∈ db.deployments.rows, Deployment.clash old deployment = false := by
    simpa [Deployment.clash] using fresh
  obtain ⟨deployments, inserted, _⟩ := Table.insert?_free free
  simp only [createIntent, unresolved, inserted]
  cases key with
  | none => rfl
  | some used =>
      cases found : db.findIdempotency used with
      | some row =>
          simp only [resolveIdempotency, found] at unresolved
          split at unresolved <;> cases unresolved
      | none =>
          have free : ∀ old ∈ db.idempotency.rows,
              IdempotencyRow.clash old ⟨createDeploymentScope, used, digest, deployment.id⟩ =
                false := by
            simpa [IdempotencyRow.clash] using List.find?_eq_none.mp found
          obtain ⟨idempotency, remembered, _⟩ := Table.insert?_free free
          simp only [remembered]

/-- `COALESCE(MAX(sequence), 0)` over the events of one deployment. -/
def lastEventSequence (deploymentId : Uuid) : Nat :=
  ((db.deploymentEvents.rows.filter fun row => row.deploymentId == deploymentId).map
    fun row => row.event.sequence).foldl max 0

def nextDeploymentEvent (deploymentId : Uuid) (phase : DeploymentPhase) (message : String)
    (occurredAt : Datetime) (failureCode : Option String) : DeploymentEvent where
  sequence := db.lastEventSequence deploymentId + 1
  phase := phase
  message := message
  occurredAt := occurredAt
  failureCode := failureCode

def appendDeploymentEvent (deploymentId : Uuid) (phase : DeploymentPhase) (message : String)
    (occurredAt : Datetime) (failureCode : Option String) :
    Except Raised DeploymentEvent × Database :=
  let event := db.nextDeploymentEvent deploymentId phase message occurredAt failureCode
  match db.deploymentEvents.insert? ⟨deploymentId, event⟩ with
  | none => (.error (.other .integrityError), db)
  | some deploymentEvents => (.ok event, { db with deploymentEvents })

private theorem le_foldl_max (values : List Nat) (start : Nat) :
    start ≤ values.foldl max start ∧ ∀ value ∈ values, value ≤ values.foldl max start := by
  induction values generalizing start with
  | nil => exact ⟨Nat.le_refl _, fun _ member => absurd member List.not_mem_nil⟩
  | cons head tail ih =>
      obtain ⟨base, bounded⟩ := ih (max start head)
      refine ⟨(Nat.le_max_left _ _).trans base, fun value member => ?_⟩
      rcases List.mem_cons.mp member with rfl | later
      · exact (Nat.le_max_right _ _).trans base
      · exact bounded value later

/-- The next sequence number is free, so an event is never refused. -/
theorem appendDeploymentEvent_spec (deploymentId : Uuid) (phase : DeploymentPhase)
    (message : String) (occurredAt : Datetime) (failureCode : Option String) :
    ∃ deploymentEvents,
      db.appendDeploymentEvent deploymentId phase message occurredAt failureCode =
        (.ok (db.nextDeploymentEvent deploymentId phase message occurredAt failureCode),
          { db with deploymentEvents }) := by
  have free : ∀ old ∈ db.deploymentEvents.rows,
      DeploymentEventRow.clash old ⟨deploymentId,
        db.nextDeploymentEvent deploymentId phase message occurredAt failureCode⟩ = false := by
    intro old member
    by_cases same : old.deploymentId = deploymentId
    · have counted : old.event.sequence ∈ (db.deploymentEvents.rows.filter fun row =>
          row.deploymentId == deploymentId).map fun row => row.event.sequence :=
        List.mem_map_of_mem (List.mem_filter.mpr ⟨member, by simpa using same⟩)
      have apart : old.event.sequence ≠ db.lastEventSequence deploymentId + 1 :=
        (Nat.lt_succ_of_le ((le_foldl_max _ 0).2 _ counted)).ne
      simp [DeploymentEventRow.clash, nextDeploymentEvent, apart]
    · simp [DeploymentEventRow.clash, same]
  obtain ⟨deploymentEvents, inserted, _⟩ := Table.insert?_free free
  exact ⟨deploymentEvents, by simp only [appendDeploymentEvent, inserted]⟩

/-- `COALESCE(MAX(sequence), 0)` over the diagnostics of one deployment. -/
def lastDiagnosticSequence (deploymentId : Uuid) : Nat :=
  ((db.deploymentDiagnostics.rows.filter fun row => row.deploymentId == deploymentId).map
    DiagnosticRow.sequence).foldl max 0

def deploymentDiagnosticsCount (deploymentId : Uuid) : Nat :=
  (db.deploymentDiagnostics.rows.filter fun row => row.deploymentId == deploymentId).length

/-- `{**document, "sequence": sequence}` -/
def stampSequence (document : List (String × JsonValue)) (sequence : Nat) :
    List (String × JsonValue) :=
  (document.filter fun member => member.1 != "sequence") ++ [("sequence", .int sequence)]

def appendDeploymentDiagnostics (deploymentId : Uuid)
    (documents : List (List (String × JsonValue))) : Database :=
  let sequence := db.lastDiagnosticSequence deploymentId
  let recordIndex := db.deploymentDiagnosticsCount deploymentId
  let row := fun (offset : Nat) (document : List (String × JsonValue)) =>
    { deploymentId
      recordIndex := recordIndex + offset
      sequence := sequence + offset + 1
      document := stampSequence document (sequence + offset + 1) : DiagnosticRow }
  { db with
    deploymentDiagnostics :=
      (documents.mapIdx row).foldl Table.insertOrReplace db.deploymentDiagnostics }

end Database

/-- One transaction of the store, as the service issues it. -/
inductive StoreOp where
  | getDeployment (id : Uuid)
  | getEndpoint (id : Uuid)
  | getExecutionRef (deploymentId : Uuid)
  | resolveIdempotency (key : Option String) (digest : String)
  | createIntent (deployment : Deployment) (key : Option String) (digest : String)
  | saveDeployment (deployment : Deployment)
  | savePair (deployment : Deployment) (endpoint : Endpoint) (executionRef : Option String)
  | appendDeploymentEvent (deploymentId : Uuid) (phase : DeploymentPhase) (message : String)
      (occurredAt : Datetime) (failureCode : Option String)
  | appendDeploymentDiagnostics (deploymentId : Uuid)
      (documents : List (List (String × JsonValue)))

namespace StoreOp

def Answer : StoreOp → Type
  | getDeployment _ => Option Deployment
  | getEndpoint _ => Option Endpoint
  | getExecutionRef _ => Option String
  | resolveIdempotency _ _ => Except Raised (Option Uuid)
  | createIntent _ _ _ => Except Raised (Option Uuid)
  | saveDeployment _ => Unit
  | savePair _ _ _ => Unit
  | appendDeploymentEvent _ _ _ _ _ => Except Raised DeploymentEvent
  | appendDeploymentDiagnostics _ _ => Unit

def run (db : Database) : (op : StoreOp) → op.Answer × Database
  | getDeployment id => (db.getDeployment id, db)
  | getEndpoint id => (db.getEndpoint id, db)
  | getExecutionRef deploymentId => (db.getExecutionRef deploymentId, db)
  | resolveIdempotency key digest => (db.resolveIdempotency key digest, db)
  | createIntent deployment key digest => db.createIntent deployment key digest
  | saveDeployment deployment => ((), db.saveDeployment deployment)
  | savePair deployment endpoint executionRef => ((), db.savePair deployment endpoint executionRef)
  | appendDeploymentEvent deploymentId phase message occurredAt failureCode =>
      db.appendDeploymentEvent deploymentId phase message occurredAt failureCode
  | appendDeploymentDiagnostics deploymentId documents =>
      ((), db.appendDeploymentDiagnostics deploymentId documents)

/-- The transactions that can change the database. -/
def writes : StoreOp → Bool
  | getDeployment _ | getEndpoint _ | getExecutionRef _ | resolveIdempotency _ _ => false
  | createIntent _ _ _ | saveDeployment _ | savePair _ _ _ => true
  | appendDeploymentEvent _ _ _ _ _ | appendDeploymentDiagnostics _ _ => true

theorem run_of_not_writes {op : StoreOp} (reads : op.writes = false) (db : Database) :
    (op.run db).2 = db := by
  cases op <;> first | rfl | cases reads

end StoreOp

end CyreneReactor
