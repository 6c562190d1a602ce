import CyreneReactor.Diagnostics.Service
import CyreneReactor.Interaction.Schedule
import CyreneReactor.Service.Commands
import CyreneReactor.Service.Script

namespace CyreneReactor.Diagnostics

open Interaction

/-! Scheduled runs of diagnostics requests: every id is a deployment with an
execution, the clock stands still, and the binding's replies are fixed.
-/

/-- What a binding replies to a request for the records after a cursor. -/
abbrev Binding := (logs : Uuid → List Members) → Uuid → (cursor : Int) → Except Raised Members

namespace Binding

variable (binding : Binding) (service : DiagnosticsService)

def deployment (id : Uuid) : Deployment :=
  ReactorService.newDeployment Sample.request id Datetime.epoch

def reply (state : State) (caller : Caller Command) : (op : Op) → op.Answer
  | .utcNow => Datetime.epoch
  | .getDeployment id => some (deployment id)
  | .getExecutionRef _ => some "execution-1"
  | .runtimeDiagnosticsCursor id => runtimeDiagnosticsCursor state.cursors id
  | .request _ _ cursor _ => binding state.logs caller.command.id cursor
  | .appendDeploymentDiagnostics _ _ => ()
  | .setRuntimeDiagnosticsCursor _ sequence =>
      if storable sequence then .ok () else .error .overflowError
  | .listDeploymentDiagnostics id afterSequence limit =>
      if storable afterSequence then
        .ok (listDeploymentDiagnostics state.database id afterSequence limit)
      else .error .overflowError
  | .deploymentDiagnosticsDegraded id =>
      (documentsOf state.database id).any service.mentionsDegraded

def after (state : State) (caller : Caller Command) (op : Op) : State where
  database := op.effect state.database
  cursors := op.cursors state.cursors
  logs := state.logs
  journal := state.journal ++ [⟨caller, op, binding.reply service state caller op⟩]

/-- Which calls occur at all. -/
abbrev Occurs := State → Caller Command → Op → Bool

variable (occurs : Occurs)

/-- The world in which the binding replies so. -/
def world : Environment := fun state caller op answer =>
  occurs state caller op = true ∧ answer = binding.reply service state caller op

def script : Script (service.system (binding.world service occurs)) where
  answer caller _ op state :=
    if occurs state caller op then
      some (binding.reply service state caller op, binding.after service state caller op)
    else none
  sound := by
    intro caller held op state answer next answered
    split at answered
    · rename_i admitted
      cases answered
      refine ⟨⟨admitted, rfl⟩, ?_, rfl, rfl, fun _ => List.prefix_rfl, rfl⟩
      cases op with
      | getDeployment id => exact fun deployment same => by cases same; rfl
      | utcNow | getExecutionRef | runtimeDiagnosticsCursor | request
      | appendDeploymentDiagnostics | setRuntimeDiagnosticsCursor | listDeploymentDiagnostics
      | deploymentDiagnosticsDegraded => first | rfl | trivial
    · cases answered

/-- A schedule played on empty tables. -/
def play (logs : Uuid → List Members) (schedule : List (Turn Command)) :
    Pool (service.system (binding.world service occurs)) :=
  (binding.script service occurs).play (Pool.initial (State.opened logs)) schedule

theorem play_reached (logs : Uuid → List Members) (schedule : List (Turn Command)) :
    Reachable (State.opened logs) (binding.play service occurs logs schedule) :=
  (binding.script service occurs).reaches_of_play schedule _

/-- One request for a page. -/
def ask (id : Uuid) : Command := .diagnostics id 0 200

end Binding

namespace Sample

def diagnostics : DiagnosticsService where
  reactor := CyreneReactor.Sample.service
  printer :=
    { isprintable := Char.isAlphanum
      floatRepr := fun _ => "0.0"
      encodes_ascii := fun _ _ => rfl
      floatRepr_head := zero_head }
  reads := fun _ => true
  mentionsDegraded := fun _ => false

/-- A record of a runtime. -/
def line (level message : String) : Members :=
  [("timestamp", .str "2000-01-01T00:00:00+00:00"), ("level", .str level),
    ("stream", .str "stderr"), ("message", .str message)]

/-- Every call occurs. -/
def always : Binding.Occurs := fun _ _ _ => true

/-- A binding with one page, whatever the cursor. -/
def repeating (records : List Members) : Binding := fun _ _ _ =>
  .ok [("items", .arr (records.map .obj)), ("nextSequence", .int records.length)]

/-- A binding that serves the log of the deployment. -/
def logging : Binding := fun logs id cursor =>
  let records := ((logs id).drop cursor.toNat).take 500
  .ok [("items", .arr (records.map .obj)),
    ("nextSequence", .int (cursor.toNat + records.length : Nat))]

end Sample

end CyreneReactor.Diagnostics
