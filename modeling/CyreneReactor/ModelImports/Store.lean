import CyreneReactor.Store

namespace CyreneReactor

open Relational

/-! Model imports: their records, their provenance, and the transactions of
`store.py` on them.
-/

inductive ModelImportSourceKind where
  | huggingFace
  | localPath
deriving DecidableEq, Repr

/-- `validate_source`: a repository with a pinned revision, or an absolute path
without traversal. -/
def ModelImportSourceValidated (kind : ModelImportSourceKind)
    (repository revision path : Option String) : Prop :=
  match kind with
  | .huggingFace => (repository.any fun name => '/' ∈ name.toList) = true ∧
      revision.isSome = true ∧ path = none
  | .localPath => (path.any fun text => text.toList.head? == some '/' &&
        !(text.toList.splitOn '/').contains ['.', '.']) = true ∧
      repository = none ∧ revision = none

structure ModelImportSource where
  kind : ModelImportSourceKind
  repository : Option String
  revision : Option String
  path : Option String
  validated : ModelImportSourceValidated kind repository revision path
deriving DecidableEq

structure ModelImportValidation where
  weights : Bool
  config : Bool
  tokenizer : Bool
  chatTemplate : Bool
  license : Option String
  provenance : String
  digest : String
  issues : List String
deriving DecidableEq, Repr

structure ModelImportResult where
  modelArtifact : ArtifactRef
  validation : ModelImportValidation
deriving DecidableEq, Repr

inductive ModelImportState where
  | validating
  | ready
  | failed
deriving DecidableEq, Repr

structure ModelImport where
  id : Uuid
  name : String
  servingBindingId : String
  source : ModelImportSource
  credentialRef : Option String
  state : ModelImportState
  modelArtifact : Option ArtifactRef
  validation : Option ModelImportValidation
  failure : Option ProductFailure
  createdAt : Datetime
  updatedAt : Datetime
  resourceVersion : Nat
deriving DecidableEq

def ModelImport.clash (old new : ModelImport) : Bool := old.id == new.id

/-- Immutable server-side organization and workspace assignment. -/
structure WorkspaceScope where
  organizationId : String
  workspaceId : String
deriving DecidableEq, Repr

structure ModelImportScopeRow where
  id : Uuid
  organizationId : String
  workspaceId : String
deriving DecidableEq, Repr

def ModelImportScopeRow.clash (old new : ModelImportScopeRow) : Bool := old.id == new.id

def ModelImportScopeRow.scope (row : ModelImportScopeRow) : WorkspaceScope :=
  ⟨row.organizationId, row.workspaceId⟩

/-- The tables that imports use.  Their idempotency rows have scopes of their own. -/
structure ImportDatabase where
  modelImports : Table ModelImport ModelImport.clash
  modelImportScopes : Table ModelImportScopeRow ModelImportScopeRow.clash
  idempotency : Table IdempotencyRow IdempotencyRow.clash

/-- `workspace_serving_binding_grants`: binding, organization, workspace. -/
abbrev Grants := List (String × String × String)

def Grants.admits (grants : Grants) (bindingId : String) (scope : WorkspaceScope) : Bool :=
  grants.contains (bindingId, scope.organizationId, scope.workspaceId)

def bindingNotGranted : ReactorProductError where
  code := "REACTOR_WORKSPACE_BINDING_NOT_GRANTED"
  title := "Serving binding is not granted"
  detail := "The selected serving binding is not granted to this Workspace."
  status := 403

def importConflict : ReactorProductError where
  code := "REACTOR_IDEMPOTENCY_CONFLICT"
  title := "Idempotency key conflict"
  detail := "The Idempotency-Key was already used with a different import request."
  status := 409

def workspaceScopeConflict : ReactorProductError where
  code := "REACTOR_WORKSPACE_SCOPE_CONFLICT"
  title := "Workspace scope conflict"
  detail := "The ModelImport belongs to a different Workspace scope."
  status := 409

namespace ImportDatabase

def empty : ImportDatabase := ⟨.empty, .empty, .empty⟩

variable (db : ImportDatabase)

/-- `model_import_scope` -/
def modelImportScope (id : Uuid) : Option WorkspaceScope :=
  (db.modelImportScopes.find? fun row => row.id == id).map ModelImportScopeRow.scope

/-- A read joined with the provenance of the import: a scope sees its own
imports, and `none` those without provenance. -/
def getFrom (scope : Option WorkspaceScope) (id : Uuid) : Option ModelImport :=
  db.modelImports.find? fun row => row.id == id && db.modelImportScope row.id == scope

/-- Row ids grow with each write, so the newest write comes first. -/
def listFrom (scope : Option WorkspaceScope) : List ModelImport :=
  (db.modelImports.rows.filter fun row => db.modelImportScope row.id == scope).reverse

def getUnscopedModelImport (id : Uuid) : Option ModelImport := db.getFrom none id

def getModelImportForWorkspace (id : Uuid) (organizationId workspaceId : String) :
    Option ModelImport :=
  db.getFrom (some ⟨organizationId, workspaceId⟩) id

def listModelImports : List ModelImport := db.listFrom none

def listModelImportsForWorkspace (organizationId workspaceId : String) : List ModelImport :=
  db.listFrom (some ⟨organizationId, workspaceId⟩)

def findImportKey (idempotencyScope key : String) : Option IdempotencyRow :=
  db.idempotency.find? fun row => row.scope == idempotencyScope && row.key == key

/-- Resolve a replay or reject a conflicting reuse of the key. -/
def resolveModelImportRequest (key : Option String) (digest idempotencyScope : String) :
    Except Raised (Option Uuid) :=
  match key with
  | none => .ok none
  | some key =>
      match db.findImportKey idempotencyScope key with
      | none => .ok none
      | some row =>
          if row.requestHash ≠ digest then .error (.product importConflict)
          else .ok (some row.resourceId)

def insertKey? (key : Option String) (digest idempotencyScope : String) (id : Uuid) :
    Option (Table IdempotencyRow IdempotencyRow.clash) :=
  match key with
  | none => some db.idempotency
  | some key => db.idempotency.insert? ⟨idempotencyScope, key, digest, id⟩

def insertScope? (scope : Option WorkspaceScope) (id : Uuid) :
    Option (Table ModelImportScopeRow ModelImportScopeRow.clash) :=
  match scope with
  | none => some db.modelImportScopes
  | some scope => db.modelImportScopes.insert? ⟨id, scope.organizationId, scope.workspaceId⟩

/-- The rows of a new import.  A violated constraint rolls all of them back. -/
def insertImport (modelImport : ModelImport) (key : Option String)
    (digest idempotencyScope : String) (scope : Option WorkspaceScope) :
    Except Raised (Option Uuid) × ImportDatabase :=
  match db.modelImports.insert? modelImport,
      db.insertKey? key digest idempotencyScope modelImport.id,
      db.insertScope? scope modelImport.id with
  | some modelImports, some idempotency, some modelImportScopes =>
      (.ok none, ⟨modelImports, modelImportScopes, idempotency⟩)
  | _, _, _ => (.error (.other .integrityError), db)

/-- Persist import intent and retry identity atomically. -/
def commitModelImportIntent (modelImport : ModelImport) (key : Option String)
    (digest idempotencyScope : String) (workspaceScope : Option WorkspaceScope)
    (grants : Grants) : Except Raised (Option Uuid) × ImportDatabase :=
  if workspaceScope.any fun scope => !grants.admits modelImport.servingBindingId scope then
    (.error (.product bindingNotGranted), db)
  else
    match db.resolveModelImportRequest key digest idempotencyScope with
    | .error raised => (.error raised, db)
    | .ok (some replay) =>
        if db.modelImportScope replay ≠ workspaceScope then
          (.error (.product workspaceScopeConflict), db)
        else (.ok (some replay), db)
    | .ok none => db.insertImport modelImport key digest idempotencyScope workspaceScope

def saveModelImport (modelImport : ModelImport) : ImportDatabase :=
  { db with modelImports := db.modelImports.insertOrReplace modelImport }

variable {db}

/-- The imports a scope owns, in the order they were last written. -/
def importsOf (db : ImportDatabase) (scope : Option WorkspaceScope) : List ModelImport :=
  db.modelImports.rows.filter fun row => db.modelImportScope row.id == scope

theorem listFrom_eq (scope : Option WorkspaceScope) :
    db.listFrom scope = (db.importsOf scope).reverse := rfl

theorem getFrom_eq (scope : Option WorkspaceScope) (id : Uuid) :
    db.getFrom scope id = (db.importsOf scope).find? fun row => row.id == id := by
  simp only [getFrom, importsOf, Table.find?, List.find?_filter, Bool.decide_and,
    Bool.decide_eq_true, Bool.and_comm]

theorem mem_importsOf {scope : Option WorkspaceScope} {row : ModelImport} :
    row ∈ db.importsOf scope ↔
      row ∈ db.modelImports.rows ∧ db.modelImportScope row.id = scope := by
  simp [importsOf]

theorem eq_of_id {left right : ModelImport} (first : left ∈ db.modelImports.rows)
    (second : right ∈ db.modelImports.rows) (same : left.id = right.id) : left = right :=
  Table.eq_of_clash (fun _ _ => Bool.beq_comm) first second (by simpa [ModelImport.clash] using same)

theorem getFrom_of_mem {scope : Option WorkspaceScope} {row : ModelImport}
    (member : row ∈ db.modelImports.rows) (owned : db.modelImportScope row.id = scope) :
    db.getFrom scope row.id = some row := by
  cases found : db.getFrom scope row.id with
  | none =>
      rw [getFrom_eq, List.find?_eq_none] at found
      exact absurd (by simp) (found row (mem_importsOf.mpr ⟨member, owned⟩))
  | some other =>
      rw [getFrom_eq] at found
      have same : other.id = row.id := by simpa using List.find?_some found
      rw [eq_of_id (mem_importsOf.mp (List.mem_of_find?_eq_some found)).1 member same]

theorem findImportKey_mem {idempotencyScope key : String} {row : IdempotencyRow}
    (found : db.findImportKey idempotencyScope key = some row) :
    row ∈ db.idempotency.rows ∧ row.scope = idempotencyScope ∧ row.key = key := by
  obtain ⟨member, wanted⟩ := Table.find?_mem found
  simpa [member] using wanted

theorem findImportKey_of_mem {row : IdempotencyRow} (member : row ∈ db.idempotency.rows) :
    db.findImportKey row.scope row.key = some row := by
  cases found : db.findImportKey row.scope row.key with
  | none =>
      have missed := List.find?_eq_none.mp found row member
      simp at missed
  | some other =>
      obtain ⟨present, scopes, keys⟩ := findImportKey_mem found
      have same : other = row :=
        Table.eq_of_clash (fun _ _ => by simp only [IdempotencyRow.clash, Bool.beq_comm])
          present member (by simp [IdempotencyRow.clash, scopes, keys])
      rw [same]

/-- What a transaction that admits a new import leaves. -/
structure AdmitsImport (db : ImportDatabase) (modelImport : ModelImport) (key : Option String)
    (digest idempotencyScope : String) (scope : Option WorkspaceScope) (after : ImportDatabase) :
    Prop where
  fresh : ∀ old ∈ db.modelImports.rows, old.id ≠ modelImport.id
  modelImports : after.modelImports.rows = db.modelImports.rows ++ [modelImport]
  modelImportScopes : after.modelImportScopes.rows = db.modelImportScopes.rows ++
    (scope.map fun scope => ⟨modelImport.id, scope.organizationId, scope.workspaceId⟩).toList
  unused : ∀ used, key = some used → db.findImportKey idempotencyScope used = none
  idempotency : after.idempotency.rows = db.idempotency.rows ++
    (key.map fun used => ⟨idempotencyScope, used, digest, modelImport.id⟩).toList

theorem insertKey?_rows {key : Option String} {digest idempotencyScope : String} {id : Uuid}
    {next : Table IdempotencyRow IdempotencyRow.clash}
    (inserted : db.insertKey? key digest idempotencyScope id = some next) :
    (∀ used, key = some used → db.findImportKey idempotencyScope used = none) ∧
      next.rows = db.idempotency.rows ++
        (key.map fun used => ⟨idempotencyScope, used, digest, id⟩).toList := by
  cases key with
  | none =>
      cases inserted
      exact ⟨fun _ same => (by cases same), by simp⟩
  | some used =>
      obtain ⟨rows, apart⟩ := Table.insert?_rows inserted
      refine ⟨fun other same => ?_, rows⟩
      cases same
      exact List.find?_eq_none.mpr (by simpa [IdempotencyRow.clash] using apart)

theorem insertKey?_free {key : Option String} (digest : String) {idempotencyScope : String}
    (id : Uuid)
    (unused : ∀ used, key = some used → db.findImportKey idempotencyScope used = none) :
    (db.insertKey? key digest idempotencyScope id).isSome = true := by
  cases key with
  | none => rfl
  | some used =>
      have free : ∀ old ∈ db.idempotency.rows,
          IdempotencyRow.clash old ⟨idempotencyScope, used, digest, id⟩ = false := by
        simpa [IdempotencyRow.clash] using List.find?_eq_none.mp (unused used rfl)
      obtain ⟨next, inserted, _⟩ := Table.insert?_free free
      simp only [insertKey?, inserted, Option.isSome_some]

theorem insertScope?_rows {scope : Option WorkspaceScope} {id : Uuid}
    {next : Table ModelImportScopeRow ModelImportScopeRow.clash}
    (inserted : db.insertScope? scope id = some next) :
    next.rows = db.modelImportScopes.rows ++
      (scope.map fun scope => ⟨id, scope.organizationId, scope.workspaceId⟩).toList := by
  cases scope with
  | none =>
      cases inserted
      simp
  | some scope => exact (Table.insert?_rows inserted).1

theorem insertScope?_free (scope : Option WorkspaceScope) {id : Uuid}
    (free : ∀ old ∈ db.modelImportScopes.rows, old.id ≠ id) :
    (db.insertScope? scope id).isSome = true := by
  cases scope with
  | none => rfl
  | some scope =>
      have apart : ∀ old ∈ db.modelImportScopes.rows,
          ModelImportScopeRow.clash old ⟨id, scope.organizationId, scope.workspaceId⟩ = false := by
        simpa [ModelImportScopeRow.clash] using free
      obtain ⟨next, inserted, _⟩ := Table.insert?_free apart
      simp only [insertScope?, inserted, Option.isSome_some]

/-- The rows of an import are inserted all together or not at all. -/
theorem insertImport_spec (modelImport : ModelImport) (key : Option String)
    (digest idempotencyScope : String) (scope : Option WorkspaceScope) :
    (db.insertImport modelImport key digest idempotencyScope scope =
        (.error (.other .integrityError), db)) ∨
      ((db.insertImport modelImport key digest idempotencyScope scope).1 = .ok none ∧
        db.AdmitsImport modelImport key digest idempotencyScope scope
          (db.insertImport modelImport key digest idempotencyScope scope).2) := by
  unfold insertImport
  split
  · rename_i modelImports idempotency modelImportScopes imported keyed attributed
    obtain ⟨rows, apart⟩ := Table.insert?_rows imported
    obtain ⟨unused, keys⟩ := insertKey?_rows keyed
    exact .inr ⟨rfl, by simpa [ModelImport.clash] using apart, rows, insertScope?_rows attributed,
      unused, keys⟩
  · exact .inl rfl

theorem insertImport_admits {modelImport : ModelImport} {key : Option String}
    {digest idempotencyScope : String} {scope : Option WorkspaceScope}
    (fresh : ∀ old ∈ db.modelImports.rows, old.id ≠ modelImport.id)
    (unscoped : ∀ old ∈ db.modelImportScopes.rows, old.id ≠ modelImport.id)
    (unused : ∀ used, key = some used → db.findImportKey idempotencyScope used = none) :
    (db.insertImport modelImport key digest idempotencyScope scope).1 = .ok none := by
  have apart : ∀ old ∈ db.modelImports.rows, ModelImport.clash old modelImport = false := by
    simpa [ModelImport.clash] using fresh
  obtain ⟨imported, inserted, _⟩ := Table.insert?_free apart
  obtain ⟨keyed, remembered⟩ := Option.isSome_iff_exists.mp
    (insertKey?_free digest modelImport.id unused)
  obtain ⟨owners, attributed⟩ := Option.isSome_iff_exists.mp
    (insertScope?_free scope unscoped)
  simp only [insertImport, inserted, remembered, attributed]

theorem resolve_none_iff {key : Option String} {digest idempotencyScope : String} :
    db.resolveModelImportRequest key digest idempotencyScope = .ok none ↔
      ∀ used, key = some used → db.findImportKey idempotencyScope used = none := by
  cases key with
  | none => simp [resolveModelImportRequest]
  | some used =>
      cases found : db.findImportKey idempotencyScope used with
      | none => simp [resolveModelImportRequest, found]
      | some row =>
          by_cases same : row.requestHash = digest <;>
            simp [resolveModelImportRequest, found, same]

theorem resolve_some {key : Option String} {digest idempotencyScope : String} {original : Uuid}
    (resolved : db.resolveModelImportRequest key digest idempotencyScope = .ok (some original)) :
    ∃ used row, key = some used ∧ db.findImportKey idempotencyScope used = some row ∧
      row.requestHash = digest ∧ row.resourceId = original := by
  cases key with
  | none => simp [resolveModelImportRequest] at resolved
  | some used =>
      cases found : db.findImportKey idempotencyScope used with
      | none => simp [resolveModelImportRequest, found] at resolved
      | some row =>
          by_cases same : row.requestHash = digest
          · simp [resolveModelImportRequest, found, same] at resolved
            exact ⟨used, row, rfl, found, same, resolved⟩
          · simp [resolveModelImportRequest, found, same] at resolved

theorem resolve_error {key : Option String} {digest idempotencyScope : String} {raised : Raised}
    (resolved : db.resolveModelImportRequest key digest idempotencyScope = .error raised) :
    ∃ used row, key = some used ∧ db.findImportKey idempotencyScope used = some row ∧
      row.requestHash ≠ digest ∧ raised = .product importConflict := by
  cases key with
  | none => simp [resolveModelImportRequest] at resolved
  | some used =>
      cases found : db.findImportKey idempotencyScope used with
      | none => simp [resolveModelImportRequest, found] at resolved
      | some row =>
          by_cases same : row.requestHash = digest
          · simp [resolveModelImportRequest, found, same] at resolved
          · simp [resolveModelImportRequest, found, same] at resolved
            exact ⟨used, row, rfl, found, same, resolved.symm⟩

/-- A transaction that does not admit the import changes nothing. -/
theorem commitModelImportIntent_spec (modelImport : ModelImport) (key : Option String)
    (digest idempotencyScope : String) (scope : Option WorkspaceScope) (grants : Grants) :
    ((db.commitModelImportIntent modelImport key digest idempotencyScope scope grants).1 ≠ .ok none ∧
        (db.commitModelImportIntent modelImport key digest idempotencyScope scope grants).2 = db) ∨
      ((db.commitModelImportIntent modelImport key digest idempotencyScope scope grants).1 =
          .ok none ∧
        db.AdmitsImport modelImport key digest idempotencyScope scope
          (db.commitModelImportIntent modelImport key digest idempotencyScope scope grants).2) := by
  unfold commitModelImportIntent
  split
  · exact .inl ⟨fun same => (by cases same), rfl⟩
  · split
    · exact .inl ⟨fun same => (by cases same), rfl⟩
    · split
      · exact .inl ⟨fun same => (by cases same), rfl⟩
      · exact .inl ⟨fun same => (by cases same), rfl⟩
    · rcases db.insertImport_spec modelImport key digest idempotencyScope scope with refused | admits
      · rw [refused]
        exact .inl ⟨fun same => (by cases same), rfl⟩
      · exact .inr admits

/-- A granted import under a new id and an unused key is admitted. -/
theorem commitModelImportIntent_admits {modelImport : ModelImport} {key : Option String}
    {digest idempotencyScope : String} {scope : Option WorkspaceScope} {grants : Grants}
    (granted : (scope.any fun scope => !grants.admits modelImport.servingBindingId scope) = false)
    (fresh : ∀ old ∈ db.modelImports.rows, old.id ≠ modelImport.id)
    (unscoped : ∀ old ∈ db.modelImportScopes.rows, old.id ≠ modelImport.id)
    (unused : ∀ used, key = some used → db.findImportKey idempotencyScope used = none) :
    (db.commitModelImportIntent modelImport key digest idempotencyScope scope grants).1 =
      .ok none := by
  have unresolved : db.resolveModelImportRequest key digest idempotencyScope = .ok none :=
    resolve_none_iff.mpr unused
  simp only [commitModelImportIntent, granted, Bool.false_eq_true, if_false, unresolved]
  exact insertImport_admits fresh unscoped unused

namespace AdmitsImport

variable {after : ImportDatabase} {modelImport : ModelImport} {key : Option String}
  {digest idempotencyScope : String} {scope : Option WorkspaceScope}
  (admits : db.AdmitsImport modelImport key digest idempotencyScope scope after)

include admits

/-- Other imports keep their provenance. -/
theorem modelImportScope_other {id : Uuid} (other : id ≠ modelImport.id) :
    after.modelImportScope id = db.modelImportScope id := by
  simp only [modelImportScope, Table.find?, admits.modelImportScopes, List.find?_append]
  cases scope with
  | none => simp
  | some scope => simp [Ne.symm other]

theorem modelImportScope_new (unscoped : ∀ old ∈ db.modelImportScopes.rows, old.id ≠ modelImport.id) :
    after.modelImportScope modelImport.id = scope := by
  have before : db.modelImportScopes.rows.find? (fun row => row.id == modelImport.id) = none :=
    List.find?_eq_none.mpr (by simpa using unscoped)
  simp only [modelImportScope, Table.find?, admits.modelImportScopes, List.find?_append, before]
  cases scope with
  | none => rfl
  | some scope => simp [ModelImportScopeRow.scope]

/-- The scope of the new import owns one import more, and the others what they did. -/
theorem importsOf (unscoped : ∀ old ∈ db.modelImportScopes.rows, old.id ≠ modelImport.id)
    (owner : Option WorkspaceScope) :
    after.importsOf owner =
      db.importsOf owner ++ if owner = scope then [modelImport] else [] := by
  have same : db.modelImports.rows.filter (fun row => after.modelImportScope row.id == owner) =
      db.importsOf owner :=
    List.filter_congr fun row member => by
      rw [admits.modelImportScope_other (admits.fresh row member)]
  simp only [ImportDatabase.importsOf] at same ⊢
  rw [admits.modelImports, List.filter_append, same, List.filter_cons,
    admits.modelImportScope_new unscoped]
  by_cases owned : scope = owner
  · simp [owned]
  · simp [owned, Ne.symm owned]

end AdmitsImport

/-- Saving an import moves it to the end of what its scope owns. -/
theorem importsOf_save (modelImport : ModelImport) (owner : Option WorkspaceScope) :
    (db.saveModelImport modelImport).importsOf owner =
      (db.importsOf owner).filter (fun old => !ModelImport.clash old modelImport) ++
        if db.modelImportScope modelImport.id = owner then [modelImport] else [] := by
  have same : ∀ id, (db.saveModelImport modelImport).modelImportScope id =
      db.modelImportScope id := fun _ => rfl
  simp only [importsOf, same]
  simp only [saveModelImport, Table.insertOrReplace, List.filter_append, List.filter_filter,
    List.filter_cons, List.filter_nil, beq_iff_eq, Bool.and_comm]

/-- An import of another scope is not among what a scope owns. -/
theorem importsOf_save_other {modelImport : ModelImport} {owner : Option WorkspaceScope}
    (other : db.modelImportScope modelImport.id ≠ owner) :
    (db.saveModelImport modelImport).importsOf owner = db.importsOf owner := by
  rw [importsOf_save, if_neg other, List.append_nil, List.filter_eq_self]
  intro row member
  have owned := (mem_importsOf.mp member).2
  simp only [ModelImport.clash, Bool.not_eq_eq_eq_not, Bool.not_true, beq_eq_false_iff_ne]
  intro same
  exact other (same ▸ owned)

end ImportDatabase

end CyreneReactor
