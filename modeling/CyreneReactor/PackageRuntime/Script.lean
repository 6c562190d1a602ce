import CyreneReactor.Interaction.Schedule
import CyreneReactor.PackageRuntime.Owner

namespace CyreneReactor.PackageRuntime

open Interaction

/-! Scheduled runs of an owner: a platform client with fixed behaviour, and a
clock that stands still.
-/

/-- What the platform client answers, and which calls occur at all. -/
structure Client where
  activates : Behaviour ActivateCall
  reconciles : Behaviour ReconcileCall
  accepts : Bool
  occurs : State → Caller Command → Op → Bool := fun _ _ _ => true

/-- 2000-01-01T00:00:00 in UTC. -/
def LocalTime.epoch : LocalTime := ⟨⟨2000, 1, 1, 0, 0, 0, 0⟩, 0, by decide, by decide⟩

namespace Client

variable (client : Client)

def reply (state : State) : (op : Op) → op.Answer
  | .ledger op => (op.run LocalTime.epoch state.ledger).1
  | .client _ => ()
  | .activateAndPersist _ _ _ _ => client.activates
  | .reconcileBindingOperationAndPersist _ => client.reconciles
  | .bindingOperationReceipt _ => client.accepts

def effect (ledger : Ledger) : Op → Ledger
  | .ledger op => (op.run LocalTime.epoch ledger).2
  | .client _ | .activateAndPersist _ _ _ _ | .reconcileBindingOperationAndPersist _
  | .bindingOperationReceipt _ => ledger

/-- The world in which this client answers. -/
def world : Environment := fun state caller op answer =>
  client.occurs state caller op = true ∧ answer = client.reply state op

def script (owner : Owner) : Script (owner.system client.world) where
  answer caller _ op state :=
    if client.occurs state caller op then
      some (client.reply state op,
        ⟨effect state.ledger op, state.journal ++ [⟨caller, op, client.reply state op⟩]⟩)
    else none
  sound := by
    intro caller held op state reply next answered
    split at answered
    · rename_i occurs
      cases answered
      refine ⟨⟨occurs, rfl⟩, ?_, rfl⟩
      cases op with
      | ledger op => exact ⟨LocalTime.epoch, rfl⟩
      | client | activateAndPersist | reconcileBindingOperationAndPersist
      | bindingOperationReceipt => exact rfl
    · cases answered

/-- A schedule played by an owner whose ledger was empty. -/
def play (owner : Owner) (schedule : List (Turn Command)) : Pool (owner.system client.world) :=
  (client.script owner).play (Pool.initial (State.opened .empty)) schedule

theorem play_reached (owner : Owner) (schedule : List (Turn Command)) :
    Reachable (State.opened .empty) (client.play owner schedule) :=
  (client.script owner).reaches_of_play schedule _

/-- A longer schedule continues a shorter one. -/
theorem play_resumes (owner : Owner) (first rest : List (Turn Command)) :
    Relation.ReflTransGen Step (client.play owner first) (client.play owner (first ++ rest)) :=
  (client.script owner).reaches_of_play_append first rest _

end Client

namespace Sample

def owner : Owner where
  bindingId := "binding"
  configured := by decide
  unicode := ⟨Char.isAlphanum, Char.isWhitespace⟩

def scope : Document :=
  [("binding_id", .str "binding"), ("package_id", .str packageId),
    ("installation_id", .str "installation"), ("operation", .str "activate")]

/-- A receipt of the request `requestId` on the sample binding. -/
def receipt (requestId : String) : Receipt where
  attributes :=
    [("request_id", .str requestId), ("source_id", .str sourceId),
      ("protocol_version", .str "cyrene.runtime-maintenance.binding-operations.v1"),
      ("catalog_generation", .int 1), ("scope", .obj scope), ("operation_token", .str "token"),
      ("gate_generation", .int 1), ("already_in_flight", .bool false),
      ("already_completed", .bool false)]
  isDataclass := true
  encodable := true

/-- A status that an activation of the sample binding accepts. -/
def status : Payload where
  document :=
    [("binding_id", .str "binding"), ("installation_id", .str "installation"),
      ("state", .str "RUNNING"), ("connection_ref", .str "cyrene-http-v1://127.0.0.1:8000")]
  encodable := true

def intent : ActivateCall :=
  .persistIntent (some "request")
    (some ⟨some "binding", some packageId, some "installation", some "activate"⟩)

def activation : Command := .activate "request" "installation"

/-- Both callbacks are called once, around one dispatch. -/
def client : Client where
  activates := .calls intent fun stored =>
    if stored.isOk then
      .dispatch (.calls (.persist (some status) (receipt "request")) fun _ => .returns)
    else .returns
  reconciles := .returns
  accepts := true

def installation : Document :=
  [("installation_id", .str "installation"), ("package_id", .str packageId),
    ("state", .str "INSTALLED")]

/-- The callback is called with the status of the binding. -/
def reconciliation : Behaviour ReconcileCall :=
  .calls (.reconcile (some status) (some installation) (receipt "request")) fun outcome =>
    match outcome with
    | .ok () => .returns
    | .error error => .raises error

/-- The client raises with a receipt that waits for the outcome. -/
def interrupted : Client where
  activates := .calls intent fun _ =>
    .dispatch (.raises (.client (some "PENDING") (some (receipt "request"))))
  reconciles := .returns
  accepts := true

end Sample

end CyreneReactor.PackageRuntime
