import CyreneReactor.Clock
import CyreneReactor.Data.Table
import Mathlib.Data.String.Basic

namespace CyreneReactor.PackageRuntime

open Relational

/-! The operation ledger of a PackageRuntime binding.

One row stands for one mutation the owner may dispatch.  A partial unique index
admits one row per binding that is not completed.  Every function here is one
transaction; `now` is the clock it reads while it runs.
-/

/-- A decoded JSON object. -/
abbrev Document := List (String × JsonValue)

/-- Something handed over to be stored as JSON.  `json.dumps` refuses it unless
it is `encodable`; a member that is no JSON value stands as null. -/
structure Payload where
  document : Document
  encodable : Bool

/-- A reading of `datetime.now().astimezone()`: the local clock and its distance
from UTC in seconds. -/
structure LocalTime where
  clock : Datetime
  offset : Int
  clock_valid : clock.IsClock
  offset_valid : offset.natAbs < 86400
deriving DecidableEq, Repr

/-- The distance from UTC as text; whole minutes are written without seconds. -/
def LocalTime.zone (time : LocalTime) : String :=
  let distance := time.offset.natAbs
  (if time.offset < 0 then "-" else "+") ++
    padded 2 (distance / 3600) ++ ":" ++ padded 2 (distance / 60 % 60) ++
    (if distance % 60 = 0 then "" else ":" ++ padded 2 (distance % 60))

def LocalTime.isoformat (time : LocalTime) : String :=
  let clock := time.clock
  padded 4 clock.year ++ "-" ++ padded 2 clock.month ++ "-" ++ padded 2 clock.day ++ "T" ++
    padded 2 clock.hour ++ ":" ++ padded 2 clock.minute ++ ":" ++ padded 2 clock.second ++
    (if clock.microsecond = 0 then "" else "." ++ padded 6 clock.microsecond) ++ time.zone

inductive Phase where
  | intent
  | unknown
  | receiptPending
  | completed
deriving DecidableEq, Repr

namespace Phase

def value : Phase → String
  | intent => "INTENT"
  | unknown => "UNKNOWN"
  | receiptPending => "RECEIPT_PENDING"
  | completed => "COMPLETED"

/-- `phase IN ('INTENT', 'UNKNOWN', 'RECEIPT_PENDING')` -/
def pending : Phase → Bool
  | intent | unknown | receiptPending => true
  | completed => false

def rank : Phase → Nat
  | intent => 0
  | unknown => 1
  | receiptPending => 2
  | completed => 3

end Phase

structure Operation where
  requestId : String
  bindingId : String
  packageId : String
  installationId : String
  operation : String
  phase : Phase
  runtimeStatus : Option Document
  receipt : Option Document
  updatedAt : LocalTime

/-- The primary key, and the index on the bindings of pending rows. -/
def Operation.clash (old new : Operation) : Bool :=
  old.requestId == new.requestId ||
    (old.bindingId == new.bindingId && old.phase.pending && new.phase.pending)

/-- A change of one row that leaves its key alone and does not reopen it. -/
structure Operation.Narrows (change : Operation → Operation) : Prop where
  requestId : ∀ row, (change row).requestId = row.requestId
  bindingId : ∀ row, (change row).bindingId = row.bindingId
  pending : ∀ row, (change row).phase.pending = true → row.phase.pending = true

theorem Operation.Narrows.apart {change : Operation → Operation}
    (narrows : Operation.Narrows change) (left right : Operation)
    (distinct : Operation.clash left right = false) :
    Operation.clash (change left) (change right) = false := by
  have leftPending := narrows.pending left
  have rightPending := narrows.pending right
  simp only [clash, narrows.requestId, narrows.bindingId, Bool.or_eq_false_iff,
    Bool.and_eq_false_imp, Bool.and_eq_true] at distinct ⊢
  refine ⟨distinct.1, fun both => ?_⟩
  by_contra reopened
  have before := distinct.2 ⟨both.1, leftPending both.2⟩
  rw [rightPending (by simpa using reopened)] at before
  cases before

abbrev Ledger := Table Operation Operation.clash

/-- A receipt as the owner can read it: its attributes, whether `asdict` turns
it into a document, and whether JSON can carry that document. -/
structure Receipt where
  attributes : Document
  isDataclass : Bool
  encodable : Bool

inductive Failure where
  | owner (code : String) (status : Nat)
  | exception (kind : ExceptionKind) (text : String)
  /-- Whatever else the platform client raises, with the attributes it carries. -/
  | client (code : Option String) (pendingBindingOperation : Option Receipt)

namespace Ledger

variable (ledger : Ledger)

def packageRuntimeOperation (requestId : String) : Option Operation :=
  ledger.find? fun row => row.requestId == requestId

/-- The query of `pending_package_runtime_operation`; the row itself is read by
a second transaction. -/
def pendingRequest (bindingId : String) : Option String :=
  (ledger.find? fun row => row.bindingId == bindingId && row.phase.pending).map
    Operation.requestId

/-- The query of `latest_package_runtime_operation`: the greatest text of
`updated_at`, and among equal texts the last row. -/
def latestRequest (bindingId : String) : Option String :=
  let later : Option Operation → Operation → Option Operation := fun best row =>
    match best with
    | none => some row
    | some old => if row.updatedAt.isoformat < old.updatedAt.isoformat then some old else some row
  ((ledger.rows.filter fun row => row.bindingId == bindingId).foldl later none).map
    Operation.requestId

def createPackageRuntimeIntent (now : LocalTime)
    (requestId bindingId packageId installationId : String) :
    Except Failure Operation × Ledger :=
  match ledger.packageRuntimeOperation requestId with
  | some existing =>
      if (existing.bindingId, existing.packageId, existing.installationId, existing.operation) ≠
          (bindingId, packageId, installationId, "activate") then
        (.error (.exception .valueError "PACKAGE_RUNTIME_REQUEST_SCOPE_CONFLICT"), ledger)
      else (.ok existing, ledger)
  | none =>
      if (ledger.pendingRequest bindingId).isSome then
        (.error (.exception .valueError "PACKAGE_RUNTIME_BINDING_OPERATION_PENDING"), ledger)
      else
        let row : Operation :=
          { requestId, bindingId, packageId, installationId
            operation := "activate"
            phase := .intent
            runtimeStatus := none
            receipt := none
            updatedAt := now }
        match ledger.insert? row with
        | none => (.error (.exception .integrityError "UNIQUE constraint failed"), ledger)
        | some after => (.ok row, after)

end Ledger

/-- `UPDATE ... WHERE request_id = ? AND guard`, on the row it finds. -/
def Operation.updated (requestId : String) (guard : Operation → Bool)
    (change : Operation → Operation) (row : Operation) : Operation :=
  if row.requestId == requestId && guard row then change row else row

theorem Operation.updated_narrows {requestId : String} {guard : Operation → Bool}
    {change : Operation → Operation}
    (sameKey : ∀ row, (change row).requestId = row.requestId)
    (sameBinding : ∀ row, (change row).bindingId = row.bindingId)
    (pending : ∀ row, guard row = true → (change row).phase.pending = true →
      row.phase.pending = true) :
    Operation.Narrows (Operation.updated requestId guard change) where
  requestId row := by unfold updated; split <;> simp [sameKey]
  bindingId row := by unfold updated; split <;> simp [sameBinding]
  pending row := by
    unfold updated
    split
    · rename_i chosen
      exact pending row (by simp only [Bool.and_eq_true] at chosen; exact chosen.2)
    · exact id

namespace Operation

variable (now : LocalTime) (requestId : String)

def intended (row : Operation) : Bool := row.phase == .intent && row.receipt.isNone

def markedUnknown : Operation → Operation :=
  updated requestId intended fun row => { row with phase := .unknown, updatedAt := now }

def unreceipted (row : Operation) : Bool :=
  (row.phase == .intent || row.phase == .unknown) && row.receipt.isNone

def receiptPersisted (receipt : Document) : Operation → Operation :=
  updated requestId unreceipted fun row =>
    { row with phase := .receiptPending, receipt := some receipt, updatedAt := now }

/-- Its transaction has read the phase, so the row it updates is pending. -/
def outcomeCommitted (runtimeStatus receipt : Document) : Operation → Operation :=
  updated requestId (fun row => row.phase.pending) fun row =>
    { row with
      phase := .receiptPending
      runtimeStatus := some runtimeStatus
      receipt := some receipt
      updatedAt := now }

def completable (row : Operation) : Bool := row.phase == .receiptPending && row.receipt.isSome

def completion : Operation → Operation :=
  updated requestId completable fun row => { row with phase := .completed, updatedAt := now }

theorem markedUnknown_narrows : Narrows (markedUnknown now requestId) := by
  refine updated_narrows (fun _ => rfl) (fun _ => rfl) fun row chosen _ => ?_
  simp only [intended, Bool.and_eq_true, beq_iff_eq] at chosen
  rw [chosen.1]
  rfl

theorem receiptPersisted_narrows (receipt : Document) :
    Narrows (receiptPersisted now requestId receipt) := by
  refine updated_narrows (fun _ => rfl) (fun _ => rfl) fun row chosen _ => ?_
  simp only [unreceipted, Bool.and_eq_true, Bool.or_eq_true, beq_iff_eq] at chosen
  rcases chosen.1 with same | same <;> rw [same] <;> rfl

theorem outcomeCommitted_narrows (runtimeStatus receipt : Document) :
    Narrows (outcomeCommitted now requestId runtimeStatus receipt) :=
  updated_narrows (fun _ => rfl) (fun _ => rfl) fun _ chosen _ => chosen

theorem completion_narrows : Narrows (completion now requestId) := by
  refine updated_narrows (fun _ => rfl) (fun _ => rfl) fun row chosen _ => ?_
  simp only [completable, Bool.and_eq_true, beq_iff_eq] at chosen
  rw [chosen.1]
  rfl

end Operation

namespace Ledger

variable (ledger : Ledger) (now : LocalTime) (requestId : String)

/-- How many rows an `UPDATE` with this guard touches. -/
def rowcount (guard : Operation → Bool) : Nat :=
  (ledger.rows.filter fun row => row.requestId == requestId && guard row).length

def markPackageRuntimeUnknown : Unit × Ledger :=
  ((), ledger.modify _ (Operation.markedUnknown_narrows now requestId).apart)

private def notJson : Failure := .exception .typeError "Object is not JSON serializable"

def persistPackageRuntimeReceipt (receipt : Payload) : Except Failure Unit × Ledger :=
  if receipt.encodable = false then (.error notJson, ledger)
  else if ledger.rowcount requestId Operation.unreceipted ≠ 1 then
    (.error (.exception .valueError "PACKAGE_RUNTIME_INTENT_NOT_PENDING"), ledger)
  else
    (.ok (), ledger.modify _
      (Operation.receiptPersisted_narrows now requestId receipt.document).apart)

def commitPackageRuntimeOutcome (runtimeStatus receipt : Payload) :
    Except Failure Unit × Ledger :=
  match ledger.packageRuntimeOperation requestId with
  | none => (.error (.exception .valueError "PACKAGE_RUNTIME_INTENT_NOT_PENDING"), ledger)
  | some row =>
      if row.phase.pending = false then
        (.error (.exception .valueError "PACKAGE_RUNTIME_INTENT_NOT_PENDING"), ledger)
      else if runtimeStatus.encodable = false ∨ receipt.encodable = false then
        (.error notJson, ledger)
      else
        (.ok (), ledger.modify _ (Operation.outcomeCommitted_narrows now requestId
          runtimeStatus.document receipt.document).apart)

def completePackageRuntimeOperation : Except Failure Unit × Ledger :=
  if ledger.rowcount requestId Operation.completable ≠ 1 then
    (.error (.exception .valueError "PACKAGE_RUNTIME_RECEIPT_NOT_PERSISTED"), ledger)
  else (.ok (), ledger.modify _ (Operation.completion_narrows now requestId).apart)

end Ledger

inductive LedgerOp where
  | packageRuntimeOperation (requestId : String)
  | pendingRequest (bindingId : String)
  | latestRequest (bindingId : String)
  | createPackageRuntimeIntent (requestId bindingId packageId installationId : String)
  | markPackageRuntimeUnknown (requestId : String)
  | persistPackageRuntimeReceipt (requestId : String) (receipt : Payload)
  | commitPackageRuntimeOutcome (requestId : String) (runtimeStatus receipt : Payload)
  | completePackageRuntimeOperation (requestId : String)

namespace LedgerOp

def Answer : LedgerOp → Type
  | packageRuntimeOperation _ => Option Operation
  | pendingRequest _ | latestRequest _ => Option String
  | createPackageRuntimeIntent _ _ _ _ => Except Failure Operation
  | markPackageRuntimeUnknown _ => Unit
  | persistPackageRuntimeReceipt _ _ | commitPackageRuntimeOutcome _ _ _
  | completePackageRuntimeOperation _ => Except Failure Unit

def run (now : LocalTime) (ledger : Ledger) : (op : LedgerOp) → op.Answer × Ledger
  | packageRuntimeOperation requestId => (ledger.packageRuntimeOperation requestId, ledger)
  | pendingRequest bindingId => (ledger.pendingRequest bindingId, ledger)
  | latestRequest bindingId => (ledger.latestRequest bindingId, ledger)
  | createPackageRuntimeIntent requestId bindingId packageId installationId =>
      ledger.createPackageRuntimeIntent now requestId bindingId packageId installationId
  | markPackageRuntimeUnknown requestId => ledger.markPackageRuntimeUnknown now requestId
  | persistPackageRuntimeReceipt requestId receipt =>
      ledger.persistPackageRuntimeReceipt now requestId receipt
  | commitPackageRuntimeOutcome requestId runtimeStatus receipt =>
      ledger.commitPackageRuntimeOutcome now requestId runtimeStatus receipt
  | completePackageRuntimeOperation requestId =>
      ledger.completePackageRuntimeOperation now requestId

end LedgerOp

end CyreneReactor.PackageRuntime
