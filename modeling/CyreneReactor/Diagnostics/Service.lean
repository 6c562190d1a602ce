import CyreneReactor.Diagnostics.Record
import CyreneReactor.Diagnostics.Store
import CyreneReactor.Service.Launch

namespace CyreneReactor.Diagnostics

open Interaction

/-! Diagnostics of a deployment: requests read the runtime's output through the
binding, persist what is new, and return a page of the persisted stream.

No request takes a lock, and each store call is a transaction of its own.
-/

inductive Failure where
  | raised (raised : Raised)
  | overflowError
  | validationError

structure DiagnosticsPage where
  resourceId : String
  items : List DiagnosticRecord
  nextSequence : Int
  terminal : Bool
  diagnosticsDegraded : Bool

/-- The length of one character in the output of `json.dumps`. -/
def dumpsChar (char : Char) : Nat :=
  if char ∈ ['"', '\\', '\n', '\r', '\t', '\x08', '\x0c'] then 2
  else if 32 ≤ char.toNat ∧ char.toNat < 127 then 1
  else if char.toNat < 0x10000 then 6
  else 12

def total (lengths : List Nat) : Nat := lengths.foldr (fun length rest => length + rest) 0

def dumpsText (text : String) : Nat := total (text.toList.map dumpsChar) + 2

def dumpsOptional (text : Option (BoundedText 200)) : Nat :=
  (text.map fun bounded => dumpsText bounded.val).getD 4

/-- The length of `json.dumps` of one record, with its braces, quotes and commas. -/
def dumpsRecord (record : DiagnosticRecord) : Nat :=
  let fields :=
    [("sequence", (toString record.sequence.val).length), ("timestamp", dumpsText record.timestamp),
      ("level", dumpsText record.level.value), ("source", dumpsText record.source.value),
      ("stream", dumpsText record.stream.value), ("code", dumpsOptional record.code),
      ("message", dumpsText record.message.val), ("requestId", dumpsOptional record.requestId),
      ("operationId", dumpsOptional record.operationId),
      ("resourceId", dumpsOptional record.resourceId),
      ("attemptId", dumpsOptional record.attemptId),
      ("truncated", if record.truncated then 4 else 5)]
  total (fields.map fun field => field.1.length + 3 + field.2) + (fields.length - 1) + 2

def dumpsRecords (records : List DiagnosticRecord) : Nat :=
  total (records.map dumpsRecord) + (records.length - 1) + 2

def diagnosticsPageMaxBytes : Nat := 1024 * 1024

/-- The first `count` records, less those at the end that do not fit. -/
def bounded (records : List DiagnosticRecord) : Nat → List DiagnosticRecord
  | 0 => []
  | count + 1 =>
      if dumpsRecords (records.take (count + 1)) > diagnosticsPageMaxBytes then
        bounded records count
      else records.take (count + 1)

/-- `_bound_diagnostics` -/
def boundDiagnostics (records : List DiagnosticRecord) : List DiagnosticRecord :=
  bounded records records.length

inductive Op where
  | utcNow
  | getDeployment (id : Uuid)
  | getExecutionRef (id : Uuid)
  | runtimeDiagnosticsCursor (id : Uuid)
  | request (engine : Engine) (executionRef : String) (afterSequence : Int) (limit : Nat)
  | appendDeploymentDiagnostics (id : Uuid) (documents : List Members)
  | setRuntimeDiagnosticsCursor (id : Uuid) (sequence : Int)
  | listDeploymentDiagnostics (id : Uuid) (afterSequence limit : Int)
  | deploymentDiagnosticsDegraded (id : Uuid)

def Op.Answer : Op → Type
  | utcNow => Datetime
  | getDeployment _ => Option Deployment
  | getExecutionRef _ => Option String
  | runtimeDiagnosticsCursor _ => Int
  | request _ _ _ _ => Except Raised Members
  | appendDeploymentDiagnostics _ _ => Unit
  | setRuntimeDiagnosticsCursor _ _ => Except Failure Unit
  | listDeploymentDiagnostics _ _ _ => Except Failure (List Members)
  | deploymentDiagnosticsDegraded _ => Bool

def diagnosticsSignature : Signature := ⟨Op, Op.Answer⟩

abbrev Diagnosing := Fallible diagnosticsSignature Failure

def call (op : Op) : Diagnosing op.Answer :=
  Fallible.perform (show diagnosticsSignature.Op from op)

/-- `reads` tells the bindings with a diagnostics method; `mentionsDegraded` is the
search of a stored document for `REACTOR.DIAGNOSTICS.DEGRADED`. -/
structure DiagnosticsService where
  reactor : ReactorService
  printer : Printer
  reads : Engine → Bool
  mentionsDegraded : Members → Bool

/-- `RemoteServingExecutionPort.diagnostics`, once its request is answered. -/
def readDiagnostics : Except Raised Members → Except Failure (Option Members)
  | .error (.serving _) | .error (.other .valueError) => .ok none
  | .error raised => .error (.raised raised)
  | .ok page =>
      match JsonValue.member? page "items" with
      | some (.arr _) => .ok (some page)
      | _ => .ok none

/-- The records of a page; what is no object is skipped. -/
def pageRecords (page : Members) : List Members :=
  match JsonValue.member? page "items" with
  | some (.arr items) =>
      items.filterMap fun item =>
        match item with
        | .obj record => some record
        | _ => none
  | _ => []

/-- `page.get("diagnosticsDegraded") is True` -/
def pageDegraded (page : Members) : Bool :=
  match JsonValue.member? page "diagnosticsDegraded" with
  | some (.bool value) => value
  | _ => false

/-- `nextSequence`, when it is an `int`; a `bool` is one. -/
def pageNext (page : Members) : Option Int :=
  match JsonValue.member? page "nextSequence" with
  | some (.int value) => some value
  | some (.bool value) => some (if value then 1 else 0)
  | _ => none

namespace DiagnosticsService

variable (service : DiagnosticsService)

/-- The documents of a page's records. -/
def runtimeDocuments (id : Uuid) (page : Members) : List Members :=
  (pageRecords page).map (runtimeDocument service.printer id)

/-- The documents of a page, with the one that says that output was lost. -/
def pageDocuments (id : Uuid) (page : Members) : Diagnosing (List Members) :=
  if pageDegraded page then do
    let now ← call .utcNow
    pure (service.runtimeDocuments id page ++ [degradedDocument id now])
  else pure (service.runtimeDocuments id page)

/-- Append, when there is something to append. -/
def appendDocuments (id : Uuid) : List Members → Diagnosing Unit
  | [] => pure ()
  | document :: rest => call (.appendDeploymentDiagnostics id (document :: rest))

def saveCursor (id : Uuid) (page : Members) : Diagnosing Unit :=
  match pageNext page with
  | none => pure ()
  | some sequence => do
      let saved ← call (.setRuntimeDiagnosticsCursor id sequence)
      Fallible.ofExcept saved

/-- What the harvest does with a page. -/
def persistPage (id : Uuid) (page : Members) : Diagnosing Bool := do
  let documents ← service.pageDocuments id page
  appendDocuments id documents
  saveCursor id page
  pure (pageDegraded page)

/-- The harvest from a binding that reports its output. -/
def harvestFrom (engine : Engine) (id : Uuid) (executionRef : String) : Diagnosing Bool := do
  let cursor ← call (.runtimeDiagnosticsCursor id)
  let reply ← call (.request engine executionRef cursor 500)
  let page ← Fallible.ofExcept (readDiagnostics reply)
  match page with
  | none => pure true
  | some page => service.persistPage id page

def raising {α : Type} (outcome : Except Raised α) : Diagnosing α :=
  Fallible.ofExcept (outcome.mapError .raised)

/-- `_harvest_runtime_diagnostics` -/
def harvestRuntimeDiagnostics (deployment : Deployment) : Diagnosing Bool := do
  let executionRef ← call (.getExecutionRef deployment.id)
  match executionRef with
  | none => pure false
  | some executionRef => do
      let engine ← raising (service.reactor.engineFor deployment.servingBindingId)
      if service.reads engine then service.harvestFrom engine deployment.id executionRef
      else pure true

def sequenceInvalid : ReactorProductError where
  code := "REACTOR_DIAGNOSTICS_SEQUENCE_INVALID"
  title := "Invalid diagnostics cursor"
  detail := "afterSequence must be non-negative."
  status := 422

def deploymentNotFound : ReactorProductError where
  code := "REACTOR_DEPLOYMENT_NOT_FOUND"
  title := "Deployment not found"
  detail := "No Deployment exists with the requested id."
  status := 404

/-- `[DiagnosticRecord.model_validate(record) for record in records]` -/
def validateAll (printer : Printer) : List Members → Except Failure (List DiagnosticRecord)
  | [] => .ok []
  | document :: rest =>
      match DiagnosticRecord.modelValidate printer document with
      | none => .error .validationError
      | some record => (validateAll printer rest).map (record :: ·)

/-- The page of the stored stream. -/
def readPage (deployment : Deployment) (id : Uuid) (afterSequence limit : Int) (degraded : Bool) :
    Diagnosing DiagnosticsPage := do
  let listed ← call (.listDeploymentDiagnostics id afterSequence limit)
  let documents ← Fallible.ofExcept listed
  let records ← Fallible.ofExcept (validateAll service.printer documents)
  let items := boundDiagnostics records
  let lost ← if degraded then pure true else call (.deploymentDiagnosticsDegraded id)
  pure
    { resourceId := id.str
      items
      nextSequence := (items.getLast?.map fun record => record.sequence.val).getD afterSequence
      terminal := deployment.observedState = .stopped ∨ deployment.observedState = .failed
      diagnosticsDegraded := lost }

/-- `deployment_diagnostics` -/
def deploymentDiagnostics (id : Uuid) (afterSequence limit : Int) : Diagnosing DiagnosticsPage := do
  if afterSequence < 0 then throw (.raised (.product sequenceInvalid))
  else do
    let found ← call (.getDeployment id)
    match found with
    | none => throw (.raised (.product deploymentNotFound))
    | some deployment => do
        let degraded ← service.harvestRuntimeDiagnostics deployment
        service.readPage deployment id afterSequence limit degraded

/-- `record_deployment_diagnostic` -/
def recordDeploymentDiagnostic (id : Uuid) (message level : String) (code : Option String) :
    Diagnosing Unit := do
  let now ← call .utcNow
  call (.appendDeploymentDiagnostics id [productDocument id now message level code])

end DiagnosticsService

/-- The document is the one the lifecycle commands record. -/
theorem records_productDocument (id : Uuid) (message level : String) (code : Option String) :
    ReactorService.recordDeploymentDiagnostic id message level code = (do
      let now ← ReactorService.utcNow
      ReactorService.store (.appendDeploymentDiagnostics id
        [productDocument id now message level code])) := rfl

/-- A request for a page, or a line the service records in the course of a command. -/
inductive Command where
  | diagnostics (id : Uuid) (afterSequence limit : Int)
  | record (id : Uuid) (message level : String) (code : Option String)
deriving DecidableEq

def Command.id : Command → Uuid
  | diagnostics id _ _ | record id _ _ _ => id

structure Event where
  caller : Caller Command
  op : Op
  answer : op.Answer

/-- The tables, what each runtime has written so far, and everything that was done. -/
structure State where
  database : Database
  cursors : Cursors
  logs : Uuid → List Members
  journal : List Event

def State.opened (logs : Uuid → List Members) : State := ⟨.empty, .empty, logs, []⟩

/-- What a call answers.  Deployments and executions are those of the moment: other
requests may have changed them. -/
def Answers (service : DiagnosticsService) (state : State) : (op : Op) → op.Answer → Prop
  | .utcNow, _ | .getExecutionRef _, _ | .request _ _ _ _, _ => True
  | .getDeployment id, found => ∀ deployment, found = some deployment → deployment.id = id
  | .runtimeDiagnosticsCursor id, cursor => cursor = runtimeDiagnosticsCursor state.cursors id
  | .appendDeploymentDiagnostics _ _, _ => True
  | .setRuntimeDiagnosticsCursor _ sequence, saved =>
      saved = if storable sequence then .ok () else .error .overflowError
  | .listDeploymentDiagnostics id afterSequence limit, listed =>
      listed = if storable afterSequence then
        .ok (listDeploymentDiagnostics state.database id afterSequence limit)
      else .error .overflowError
  | .deploymentDiagnosticsDegraded id, lost =>
      lost = (documentsOf state.database id).any service.mentionsDegraded

def Op.effect (database : Database) : Op → Database
  | .appendDeploymentDiagnostics id documents => database.appendDeploymentDiagnostics id documents
  | _ => database

def Op.cursors (cursors : Cursors) : Op → Cursors
  | .setRuntimeDiagnosticsCursor id sequence =>
      if storable sequence then Diagnostics.setRuntimeDiagnosticsCursor cursors id sequence
      else cursors
  | _ => cursors

/-- A restriction of what callers do and what they are answered. -/
abbrev Environment := State → Caller Command → (op : Op) → op.Answer → Prop

def Environment.unrestricted : Environment := fun _ _ _ _ => True

/-- One call.  The runtimes may write meanwhile, but what they wrote stays. -/
structure Performs (service : DiagnosticsService) (environment : Environment)
    (caller : Caller Command) (op : Op) (state : State) (answer : op.Answer) (next : State) :
    Prop where
  admitted : environment state caller op answer
  answers : Answers service state op answer
  database : next.database = op.effect state.database
  cursors : next.cursors = op.cursors state.cursors
  logs : ∀ id, state.logs id <+: next.logs id
  journal : next.journal = state.journal ++ [⟨caller, op, answer⟩]

namespace DiagnosticsService

variable (service : DiagnosticsService)

/-- What a command answers: a page, or nothing. -/
def body : Command → Diagnosing (Option DiagnosticsPage)
  | .diagnostics id afterSequence limit => do
      let page ← service.deploymentDiagnostics id afterSequence limit
      pure (some page)
  | .record id message level code => do
      recordDeploymentDiagnostic id message level code
      pure none

def system (environment : Environment) : System where
  signature := diagnosticsSignature
  State := State
  Command := Command
  Result := Except Failure (Option DiagnosticsPage)
  body command := (service.body command).run
  exec caller _ op state answer next := Performs service environment caller op state answer next

end DiagnosticsService

end CyreneReactor.Diagnostics
