import CyreneReactor.Interaction.Pool
import CyreneReactor.PackageRuntime.Ledger

namespace CyreneReactor.PackageRuntime

open Interaction

/-! `PackageRuntimeOwner`: the entry points that activate one configured binding,
and the callbacks they hand to the platform client.

The client is code of another project.  What it does in one call is a tree: it
dispatches mutations, calls the callbacks it was given, sees how each of them
ends, and returns or raises.
-/

def packageId : String := "cyrene.serving.vllm-runtime"

def sourceId : String := "cyrene-reactor"

/-- The two character classes of Python text the owner asks for. -/
structure Unicode where
  isalnum : Char → Bool
  isspace : Char → Bool

/-- `_BINDING_ID` -/
def isBindingId (bindingId : String) : Bool :=
  match bindingId.toList with
  | [] => false
  | first :: rest =>
      (first.isAlphanum) && decide (1 ≤ rest.length) && decide (rest.length ≤ 127) &&
        rest.all fun ch =>
          ch.isLower || ch.isDigit || ch == '_' || ch == '.' || ch == '-'

structure Owner where
  bindingId : String
  configured : isBindingId bindingId = true
  unicode : Unicode

def member? (document : Document) (key : String) : Option JsonValue :=
  JsonValue.member? document key

/-- `document.get(key) == text` -/
def reads (document : Document) (key text : String) : Bool :=
  match member? document key with
  | some (.str found) => found == text
  | _ => false

def text? (document : Document) (key : String) : Option String :=
  match member? document key with
  | some (.str found) => some found
  | _ => none

def object? (document : Document) (key : String) : Option Document :=
  match member? document key with
  | some (.obj members) => some members
  | _ => none

def connectionRefPrefix : String := "cyrene-http-v1://127.0.0.1:"

/-- `int` of decimal digits. -/
def decimal? (digits : List Char) : Option Nat :=
  if digits.isEmpty || !digits.all Char.isDigit then none
  else some (digits.foldl (fun value digit => 10 * value + (digit.toNat - '0'.toNat)) 0)

/-- `control_url_from_connection_ref`.  Its last comparison admits one spelling of
each port, and the parts that `urlsplit` finds in that spelling are the expected ones. -/
def controlUrlFromConnectionRef (connectionRef : String) : Option String :=
  let chars := connectionRef.toList
  if connectionRefPrefix.toList.isPrefixOf chars then
    match decimal? (chars.drop connectionRefPrefix.toList.length) with
    | none => none
    | some port =>
        if 1 ≤ port ∧ port ≤ 65535 ∧ connectionRef = connectionRefPrefix ++ toString port then
          some ("http://127.0.0.1:" ++ toString port)
        else none
  else none

namespace Owner

def failure (code : String) (status : Nat) : Failure := .owner code status

variable (owner : Owner)

/-- `_validate_actual` -/
def validateActual (status : Document) (installationId : String) : Except Failure Unit :=
  if reads status "binding_id" owner.bindingId = false ∨
      reads status "installation_id" installationId = false ∨
      reads status "state" "RUNNING" = false then
    .error (failure "PACKAGE_RUNTIME_ACTUAL_STATE_MISMATCH" 409)
  else
    match text? status "connection_ref" with
    | none => .error (failure "PACKAGE_RUNTIME_ACTUAL_STATE_MISMATCH" 409)
    | some connectionRef =>
        if connectionRef = "" then .error (failure "PACKAGE_RUNTIME_ACTUAL_STATE_MISMATCH" 409)
        else if (controlUrlFromConnectionRef connectionRef).isNone then
          .error (failure "PACKAGE_RUNTIME_CONNECTION_REF_INVALID" 409)
        else .ok ()

/-- `_check_scope` -/
def checkScope (record : Operation) (installationId : String) : Except Failure Unit :=
  if (record.bindingId, record.packageId, record.installationId, record.operation) ≠
      (owner.bindingId, packageId, installationId, "activate") then
    .error (failure "PACKAGE_RUNTIME_REQUEST_SCOPE_CONFLICT" 409)
  else .ok ()

/-- `_is_safe_request_id` -/
def isSafeRequestId (requestId : String) : Bool :=
  let chars := requestId.toList
  decide (1 ≤ chars.length) && decide (chars.length ≤ 128) &&
    chars.all fun ch =>
      owner.unicode.isalnum ch || ch == '-' || ch == '_' || ch == '.' || ch == ':'

end Owner

/-- `existing.get("receipt")` is true of documents that have a member. -/
def Operation.receipted (row : Operation) : Bool :=
  match row.receipt with
  | some (_ :: _) => true
  | _ => false

/-- `_receipt_to_private_document` -/
def Receipt.toPrivateDocument (receipt : Receipt) : Except Failure Payload :=
  if receipt.isDataclass = false then
    .error (Owner.failure "PACKAGE_RUNTIME_RECEIPT_INVALID" 502)
  else if (object? receipt.attributes "scope").isNone then
    .error (Owner.failure "PACKAGE_RUNTIME_RECEIPT_INVALID" 502)
  else .ok ⟨receipt.attributes, receipt.encodable⟩

/-- The scope of one activation, as the members of a receipt's scope. -/
def scopeMatches (scope : Document) (bindingId installationId : String) : Bool :=
  reads scope "binding_id" bindingId && reads scope "package_id" packageId &&
    reads scope "installation_id" installationId && reads scope "operation" "activate"

def isPositiveInt : Option JsonValue → Bool
  | some (.int value) => decide (0 < value)
  | _ => false

/-- `_pending_receipt_document` -/
def pendingReceiptDocument (error : Failure) (requestId bindingId installationId : String) :
    Option Payload :=
  match error with
  | .client _ (some receipt) =>
      match receipt.toPrivateDocument with
      | .error _ => none
      | .ok payload =>
          match object? payload.document "scope" with
          | none => none
          | some scope =>
              if reads payload.document "request_id" requestId = false ∨
                  reads payload.document "source_id" sourceId = false ∨
                  scopeMatches scope bindingId installationId = false then none
              else
                match text? payload.document "operation_token",
                    member? payload.document "already_in_flight",
                    member? payload.document "already_completed" with
                | some token, some (.bool _), some (.bool alreadyCompleted) =>
                    if token = "" ∨ alreadyCompleted = true ∨
                        isPositiveInt (member? payload.document "catalog_generation") = false ∨
                        isPositiveInt (member? payload.document "gate_generation") = false ∨
                        reads payload.document "protocol_version"
                          "cyrene.runtime-maintenance.binding-operations.v1" = false then none
                    else some payload
                | _, _, _ => none
  | _ => none

/-- The members `_receipt_from_private_document` takes out of a stored receipt
before it builds the SDK's own types from them. -/
def hasReceiptMembers (document : Document) : Bool :=
  (object? document "scope").isSome &&
    ["request_id", "source_id", "protocol_version", "catalog_generation", "operation_token",
      "gate_generation", "already_in_flight", "already_completed"].all
        fun key => (member? document key).isSome

/-- `_safe_code` -/
def safeCode (text : String) : String :=
  let chars := text.toList
  if decide (1 ≤ chars.length) && decide (chars.length ≤ 96) &&
      chars.all (fun ch => ch.isUpper || ch.isDigit || ch == '_') then text
  else "PACKAGE_RUNTIME_OPERATION_FAILED"

def Failure.code? : Failure → Option String
  | .owner code _ => some code
  | .exception _ _ => none
  | .client code _ => code

/-- What the owner tells its callers about a row. -/
inductive PublicState where
  | bare (bindingId phase : String)
  | projected (bindingId requestId installationId phase : String) (blocked : Bool)
      (runtimeState : Option JsonValue)

/-- `_public_state` -/
def Owner.publicState (owner : Owner) (record : Operation) : PublicState :=
  .projected owner.bindingId record.requestId record.installationId record.phase.value
    (record.phase != .completed) (record.runtimeStatus.bind fun status => member? status "state")

/-- The scope object the client passes to `persist_intent`; an attribute that is
no text is left out. -/
structure Scope where
  bindingId : Option String
  packageId : Option String
  installationId : Option String
  operation : Option String
deriving DecidableEq

/-- The callbacks of `activate_and_persist`.  A status that is no mapping, and a
scope that lacks an attribute, are left out. -/
inductive ActivateCall where
  | persistIntent (actualRequestId : Option String) (scope : Option Scope)
  | persist (runtimeStatus : Option Payload) (receipt : Receipt)

/-- The callback of `reconcile_binding_operation_and_persist`. -/
inductive ReconcileCall where
  | reconcile (runtimeStatus : Option Payload) (installation : Option Document)
      (brokerReceipt : Receipt)

/-- One call of the platform client, as the owner sees it. -/
inductive Behaviour (Call : Type) where
  | returns
  | raises (error : Failure)
  | dispatch (rest : Behaviour Call)
  | calls (call : Call) (next : Except Failure Unit → Behaviour Call)

/-- What the client does, one step at a time. -/
inductive ClientMove where
  | dispatches
  | raises (error : Failure)
  | activates (call : ActivateCall)
  | reconciles (call : ReconcileCall)

inductive Op where
  | ledger (op : LedgerOp)
  | client (move : ClientMove)
  | activateAndPersist (bindingId installationId packageId requestId : String)
  | reconcileBindingOperationAndPersist (receipt : Document)
  /-- The SDK's receipt types, which may refuse the members they are given. -/
  | bindingOperationReceipt (document : Document)

def Op.Answer : Op → Type
  | ledger op => op.Answer
  | client _ => Unit
  | activateAndPersist _ _ _ _ => Behaviour ActivateCall
  | reconcileBindingOperationAndPersist _ => Behaviour ReconcileCall
  | bindingOperationReceipt _ => Bool

def ownerSignature : Signature := ⟨Op, Op.Answer⟩

/-- Owner code: it calls the ledger and the client, and returns or raises. -/
abbrev Owned := Fallible ownerSignature Failure

def call (op : Op) : Owned op.Answer := Fallible.perform (show ownerSignature.Op from op)

/-- A transaction of the ledger that cannot raise. -/
def transact (op : LedgerOp) : Owned op.Answer := call (.ledger op)

/-- What a transaction raises, its caller raises. -/
def raising {α : Type} (answer : Owned (Except Failure α)) : Owned α := do
  Fallible.ofExcept (← answer)

/-- The client's call, with the code behind each callback. -/
def Behaviour.run {Call : Type} (move : Call → ClientMove) (callback : Call → Owned Unit) :
    Behaviour Call → Owned Unit
  | .returns => pure ()
  | .raises error => do
      call (.client (.raises error))
      throw error
  | .dispatch rest => do
      call (.client .dispatches)
      rest.run move callback
  | .calls call' next => do
      call (.client (move call'))
      let outcome ← ExceptT.lift (callback call').attempt
      (next outcome).run move callback

namespace Owner

variable (owner : Owner)

def pendingPackageRuntimeOperation : Owned (Option Operation) := do
  match ← transact (.pendingRequest owner.bindingId) with
  | none => pure none
  | some requestId => transact (.packageRuntimeOperation requestId)

def latestPackageRuntimeOperation : Owned (Option Operation) := do
  match ← transact (.latestRequest owner.bindingId) with
  | none => pure none
  | some requestId => transact (.packageRuntimeOperation requestId)

def status : Owned PublicState := do
  match ← owner.pendingPackageRuntimeOperation with
  | some pending =>
      if pending.phase = .intent ∧ pending.receipted = false then
        transact (.markPackageRuntimeUnknown pending.requestId)
        match ← transact (.packageRuntimeOperation pending.requestId) with
        | none => pure (.bare owner.bindingId "UNKNOWN")
        | some record => pure (owner.publicState record)
      else pure (owner.publicState pending)
  | none =>
      match ← owner.latestPackageRuntimeOperation with
      | none => pure (.bare owner.bindingId "NOT_CONFIGURED")
      | some latest => pure (owner.publicState latest)

/-- What `persist_intent` checks before it stores the intent. -/
def checkIntent (requestId installationId : String) (actualRequestId : Option String)
    (scope : Option Scope) : Except Failure Unit :=
  if actualRequestId ≠ some requestId then
    .error (failure "PACKAGE_RUNTIME_REQUEST_SCOPE_CONFLICT" 409)
  else
    match scope with
    | none => .error (.exception .attributeError "scope")
    | some scope =>
        if scope ≠ ⟨some owner.bindingId, some packageId, some installationId, some "activate"⟩ then
          .error (failure "PACKAGE_RUNTIME_REQUEST_SCOPE_CONFLICT" 409)
        else .ok ()

def persistIntent (requestId installationId : String) (actualRequestId : Option String)
    (scope : Option Scope) : Owned Unit := do
  Fallible.ofExcept (owner.checkIntent requestId installationId actualRequestId scope)
  let _ ← raising (transact
    (.createPackageRuntimeIntent requestId owner.bindingId packageId installationId))
  pure ()

def persist (requestId installationId : String) (runtimeStatus : Option Payload)
    (receipt : Receipt) : Owned Unit := do
  match runtimeStatus with
  | none => throw (failure "PACKAGE_RUNTIME_OUTCOME_INVALID" 502)
  | some runtimeStatus =>
      Fallible.ofExcept (owner.validateActual runtimeStatus.document installationId)
      let document ← Fallible.ofExcept receipt.toPrivateDocument
      raising (transact (.commitPackageRuntimeOutcome requestId runtimeStatus document))

def activateCallback (requestId installationId : String) : ActivateCall → Owned Unit
  | .persistIntent actualRequestId scope =>
      owner.persistIntent requestId installationId actualRequestId scope
  | .persist runtimeStatus receipt =>
      owner.persist requestId installationId runtimeStatus receipt

/-- The handler of an exception that is not the owner's own. -/
def activationFailed (requestId installationId : String) (error : Failure) :
    Owned PublicState := do
  let raised := fun status => Owner.failure
    (safeCode (error.code?.getD "PACKAGE_RUNTIME_ACTIVATION_FAILED")) status
  match ← transact (.packageRuntimeOperation requestId) with
  | none => throw (raised 502)
  | some current =>
      if current.phase = .intent then
        match pendingReceiptDocument error requestId owner.bindingId installationId with
        | some receipt =>
            raising (transact (.persistPackageRuntimeReceipt requestId receipt))
            throw (raised 409)
        | none =>
            transact (.markPackageRuntimeUnknown requestId)
            throw (raised 502)
      else throw (raised 502)

/-- The guarded call of the client: all of it is inside the `try` block. -/
def activateAndComplete (requestId installationId : String) : Owned Unit := do
  let behaviour : Behaviour ActivateCall ←
    call (.activateAndPersist owner.bindingId installationId packageId requestId)
  behaviour.run .activates (owner.activateCallback requestId installationId)
  raising (transact (.completePackageRuntimeOperation requestId))

/-- A request id that has a row: its state is returned or reported. -/
def replayed (requestId installationId : String) (existing : Operation) : Owned PublicState := do
  Fallible.ofExcept (owner.checkScope existing installationId)
  if existing.phase = .completed then pure (owner.publicState existing)
  else if existing.receipted then throw (failure "PACKAGE_RUNTIME_RECONCILE_REQUIRED" 409)
  else if existing.phase = .intent then
    transact (.markPackageRuntimeUnknown requestId)
    throw (failure "PACKAGE_RUNTIME_OUTCOME_UNKNOWN" 409)
  else throw (failure "PACKAGE_RUNTIME_OUTCOME_UNKNOWN" 409)

/-- A request id without a row: the client is called. -/
def activateNew (requestId installationId : String) : Owned PublicState := do
  match ← ExceptT.lift (owner.activateAndComplete requestId installationId).attempt with
  | .ok () => owner.status
  | .error (.owner code status) => throw (.owner code status)
  | .error error => owner.activationFailed requestId installationId error

/-- What `activate` checks of its arguments. -/
def checkArguments (requestId installationId : String) : Except Failure Unit :=
  if owner.isSafeRequestId requestId = false then
    .error (failure "PACKAGE_RUNTIME_REQUEST_ID_INVALID" 422)
  else if installationId.toList.all owner.unicode.isspace then
    .error (failure "PACKAGE_RUNTIME_INSTALLATION_ID_REQUIRED" 422)
  else .ok ()

def activateLocked (requestId installationId : String) : Owned PublicState := do
  Fallible.ofExcept (owner.checkArguments requestId installationId)
  match ← transact (.packageRuntimeOperation requestId) with
  | some existing => owner.replayed requestId installationId existing
  | none =>
      match ← owner.pendingPackageRuntimeOperation with
      | some _ => throw (failure "PACKAGE_RUNTIME_BINDING_OPERATION_PENDING" 409)
      | none => owner.activateNew requestId installationId

def activate (requestId installationId : String) : Owned PublicState :=
  Fallible.locked (owner.activateLocked requestId installationId)

/-- What the callback checks of the installation the client reports. -/
def checkInstallation (installation : Option Document) (installationId : String) :
    Except Failure Unit :=
  match installation with
  | none => .error (.exception .attributeError "get")
  | some installation =>
      if reads installation "installation_id" installationId = false ∨
          reads installation "package_id" packageId = false ∨
          reads installation "state" "INSTALLED" = false then
        .error (failure "PACKAGE_RUNTIME_INSTALLATION_MISMATCH" 409)
      else .ok ()

/-- What the callback checks of the receipt's attributes. -/
def checkBrokerReceipt (requestId installationId : String) (brokerReceipt : Receipt) :
    Except Failure Unit :=
  if reads brokerReceipt.attributes "request_id" requestId = false then
    .error (failure "PACKAGE_RUNTIME_RECEIPT_SCOPE_MISMATCH" 409)
  else
    match member? brokerReceipt.attributes "scope" with
    | none | some .null => .error (failure "PACKAGE_RUNTIME_RECEIPT_SCOPE_MISMATCH" 409)
    | some (.obj scope) =>
        if ["binding_id", "package_id", "installation_id", "operation"].all
            (fun key => (member? scope key).isSome) = false then
          .error (.exception .attributeError "scope")
        else if scopeMatches scope owner.bindingId installationId = false then
          .error (failure "PACKAGE_RUNTIME_RECEIPT_SCOPE_MISMATCH" 409)
        else .ok ()
    | some _ => .error (.exception .attributeError "binding_id")

/-- What the callback checks against a status the row already has. -/
def checkConnectionRef (runtimeStatus : Document) (previousStatus : Option Document) :
    Except Failure Unit :=
  match previousStatus with
  | some previous =>
      if text? runtimeStatus "connection_ref" ≠ text? previous "connection_ref" then
        .error (failure "PACKAGE_RUNTIME_CONNECTION_REF_MISMATCH" 409)
      else .ok ()
  | none => .ok ()

def reconcileCallback (requestId : String) (record : Operation) : ReconcileCall → Owned Unit
  | .reconcile runtimeStatus installation brokerReceipt => do
      Fallible.ofExcept (owner.checkBrokerReceipt requestId record.installationId brokerReceipt)
      match runtimeStatus with
      | none => throw (.exception .attributeError "get")
      | some runtimeStatus =>
          Fallible.ofExcept (owner.validateActual runtimeStatus.document record.installationId)
          Fallible.ofExcept (checkConnectionRef runtimeStatus.document record.runtimeStatus)
          Fallible.ofExcept (checkInstallation installation record.installationId)
          let document ← Fallible.ofExcept brokerReceipt.toPrivateDocument
          raising (transact (.commitPackageRuntimeOutcome requestId runtimeStatus document))

/-- The guarded call of the client in `reconcile`. -/
def reconcileAndComplete (requestId : String) (record : Operation) (receipt : Document) :
    Owned Unit := do
  let behaviour : Behaviour ReconcileCall ← call (.reconcileBindingOperationAndPersist receipt)
  behaviour.run .reconciles (owner.reconcileCallback requestId record)
  raising (transact (.completePackageRuntimeOperation requestId))

/-- `_receipt_from_private_document` -/
def receiptFromPrivateDocument (document : Document) : Owned Unit := do
  if hasReceiptMembers document then
    let accepted : Bool ← call (.bindingOperationReceipt document)
    if accepted then pure () else throw (failure "PACKAGE_RUNTIME_RECEIPT_INVALID" 503)
  else throw (failure "PACKAGE_RUNTIME_RECEIPT_INVALID" 503)

def reconcile (requestId : String) : Owned PublicState := do
  match ← transact (.packageRuntimeOperation requestId) with
  | none => throw (failure "PACKAGE_RUNTIME_REQUEST_NOT_FOUND" 404)
  | some record =>
      Fallible.ofExcept (owner.checkScope record record.installationId)
      match record.receipt with
      | none => throw (failure "PACKAGE_RUNTIME_OUTCOME_UNKNOWN" 409)
      | some receipt =>
          receiptFromPrivateDocument receipt
          match ← ExceptT.lift (owner.reconcileAndComplete requestId record receipt).attempt with
          | .ok () => owner.status
          | .error (.owner code status) => throw (.owner code status)
          | .error error =>
              throw (failure
                (safeCode (error.code?.getD "PACKAGE_RUNTIME_RECONCILIATION_FAILED")) 409)

end Owner

inductive Command where
  | activate (requestId installationId : String)
  | reconcile (requestId : String)
  | status
deriving DecidableEq

structure Event where
  caller : Caller Command
  op : Op
  answer : op.Answer

/-- The ledger, and everything that was done, in the order it was done. -/
structure State where
  ledger : Ledger
  journal : List Event

def State.opened (ledger : Ledger) : State := ⟨ledger, []⟩

/-- What one call does to the ledger. -/
def Op.Effect : (op : Op) → Ledger → op.Answer → Ledger → Prop
  | .ledger op, before, answer, after => ∃ now, op.run now before = (answer, after)
  | .client _, before, _, after | .activateAndPersist _ _ _ _, before, _, after
  | .reconcileBindingOperationAndPersist _, before, _, after
  | .bindingOperationReceipt _, before, _, after => after = before

/-- A restriction of what callers do and what they are answered. -/
abbrev Environment := State → Caller Command → (op : Op) → op.Answer → Prop

def Environment.unrestricted : Environment := fun _ _ _ _ => True

structure Performs (environment : Environment) (caller : Caller Command) (op : Op)
    (state : State) (answer : op.Answer) (next : State) : Prop where
  admitted : environment state caller op answer
  effect : op.Effect state.ledger answer next.ledger
  journal : next.journal = state.journal ++ [⟨caller, op, answer⟩]

def Owner.body (owner : Owner) : Command → Owned PublicState
  | .activate requestId installationId => owner.activate requestId installationId
  | .reconcile requestId => owner.reconcile requestId
  | .status => owner.status

def Owner.system (owner : Owner) (environment : Environment) : System where
  signature := ownerSignature
  State := State
  Command := Command
  Result := Except Failure PublicState
  body command := (owner.body command).run
  exec caller _ op state answer next := Performs environment caller op state answer next

end CyreneReactor.PackageRuntime
