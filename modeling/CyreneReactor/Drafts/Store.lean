import CyreneReactor.Store

namespace CyreneReactor.Drafts

open Relational

/-! Deployment drafts and their rows in the Product store: `create_draft`,
`get_draft` and `save_draft`.  Their receipts stand in the `idempotency` table
under a scope of their own, so no other row of that table meets them.
-/

structure ProductResourceRef where
  uri : String
  id : Uuid
  resourceVersion : Nat
deriving DecidableEq, Repr

/-- The body of an import; its version is canonical. -/
structure CreateDeploymentDraft where
  sourceRef : ProductResourceRef
  modelVersion : ModelVersionDocument

inductive DraftState where
  | draft
  | started
deriving DecidableEq, Repr

structure DeploymentDraft extends CreateDeploymentDraft where
  id : Uuid
  resourceRef : ProductResourceRef
  state : DraftState
  deploymentRef : Option ProductResourceRef
  createdAt : Datetime

def DeploymentDraft.clash (old new : DeploymentDraft) : Bool := old.id == new.id

theorem DeploymentDraft.clash_symm (left right : DeploymentDraft) :
    left.clash right = right.clash left := by
  simp only [clash, Bool.beq_comm]

def deploymentDraftScope : String := "deployment-draft"

structure DraftStore where
  drafts : Table DeploymentDraft DeploymentDraft.clash
  receipts : Table IdempotencyRow IdempotencyRow.clash

namespace DraftStore

def empty : DraftStore := ⟨.empty, .empty⟩

variable (store : DraftStore)

def findReceipt (key : String) : Option IdempotencyRow :=
  store.receipts.find? fun row => row.scope == deploymentDraftScope && row.key == key

def draftNotFound : ReactorProductError where
  code := "REACTOR_DRAFT_NOT_FOUND"
  title := "Deployment draft not found"
  detail := "The selected deployment draft does not exist."
  status := 404

def draftConflict : ReactorProductError where
  code := "REACTOR_IDEMPOTENCY_CONFLICT"
  title := "Draft request conflict"
  detail := "This handoff key already identifies another request."
  status := 409

/-- `get_draft` -/
def getDraft (id : Uuid) : Except Raised DeploymentDraft :=
  match store.drafts.find? fun draft => draft.id == id with
  | none => .error (.product draftNotFound)
  | some draft => .ok draft

/-- `create_draft`: a draft and its replay receipt, in one transaction. -/
def createDraft (draft : DeploymentDraft) (key digest : String) :
    Except Raised DeploymentDraft × DraftStore :=
  match store.findReceipt key with
  | some row =>
      if row.requestHash ≠ digest then (.error (.product draftConflict), store)
      else (store.getDraft row.resourceId, store)
  | none =>
      match store.drafts.insert? draft,
          store.receipts.insert? ⟨deploymentDraftScope, key, digest, draft.id⟩ with
      | some drafts, some receipts => (.ok draft, { drafts, receipts })
      | _, _ => (.error (.other .integrityError), store)

/-- `save_draft` -/
def saveDraft (draft : DeploymentDraft) : DraftStore :=
  { store with drafts := store.drafts.insertOrReplace draft }

variable {store}

theorem getDraft_eq_ok {id : Uuid} {draft : DeploymentDraft}
    (found : store.getDraft id = .ok draft) : draft ∈ store.drafts.rows ∧ draft.id = id := by
  unfold getDraft at found
  split at found
  · cases found
  · rename_i stored lookup
    cases found
    obtain ⟨present, named⟩ := Table.find?_mem lookup
    exact ⟨present, by simpa using named⟩

theorem getDraft_of_mem {draft : DeploymentDraft} (present : draft ∈ store.drafts.rows) :
    store.getDraft draft.id = .ok draft := by
  unfold getDraft
  cases lookup : store.drafts.find? fun stored => stored.id == draft.id with
  | none =>
      have absent := List.find?_eq_none.mp lookup draft present
      simp at absent
  | some stored =>
      obtain ⟨there, named⟩ := Table.find?_mem lookup
      have clashes : stored.clash draft = true := named
      rw [Table.eq_of_clash DeploymentDraft.clash_symm there present clashes]

theorem findReceipt_eq_some {key : String} {row : IdempotencyRow}
    (found : store.findReceipt key = some row) : row ∈ store.receipts.rows ∧ row.key = key := by
  obtain ⟨present, wanted⟩ := Table.find?_mem found
  simp only [Bool.and_eq_true, beq_iff_eq] at wanted
  exact ⟨present, wanted.2⟩

/-- What `create_draft` can come to, told by the receipt it finds. -/
inductive Creates (store : DraftStore) (draft : DeploymentDraft) (key digest : String) :
    Except Raised DeploymentDraft × DraftStore → Prop where
  | conflict {row : IdempotencyRow} (found : store.findReceipt key = some row)
      (different : row.requestHash ≠ digest) :
      Creates store draft key digest (.error (.product draftConflict), store)
  | replayed {row : IdempotencyRow} (found : store.findReceipt key = some row)
      (same : row.requestHash = digest) :
      Creates store draft key digest (store.getDraft row.resourceId, store)
  | stored {next : DraftStore} (unused : store.findReceipt key = none)
      (drafts : next.drafts.rows = store.drafts.rows ++ [draft])
      (receipts : next.receipts.rows =
        store.receipts.rows ++ [⟨deploymentDraftScope, key, digest, draft.id⟩]) :
      Creates store draft key digest (.ok draft, next)

/-- An import under an id no stored draft has comes to one of these. -/
theorem createDraft_creates {draft : DeploymentDraft} {key digest : String}
    (fresh : ∀ old ∈ store.drafts.rows, old.id ≠ draft.id) :
    Creates store draft key digest (store.createDraft draft key digest) := by
  unfold createDraft
  cases found : store.findReceipt key with
  | some row =>
      simp only
      split
      · rename_i different
        exact .conflict found different
      · rename_i same
        exact .replayed found (not_not.mp same)
  | none =>
      have freeDraft : ∀ old ∈ store.drafts.rows, old.clash draft = false := by
        simpa [DeploymentDraft.clash] using fresh
      have freeReceipt : ∀ old ∈ store.receipts.rows,
          IdempotencyRow.clash old ⟨deploymentDraftScope, key, digest, draft.id⟩ = false := by
        simpa [IdempotencyRow.clash] using List.find?_eq_none.mp found
      obtain ⟨drafts, inserted, rows⟩ := Table.insert?_free freeDraft
      obtain ⟨receipts, remembered, rows'⟩ := Table.insert?_free freeReceipt
      simp only [inserted, remembered]
      exact .stored found rows rows'

end DraftStore

end CyreneReactor.Drafts
