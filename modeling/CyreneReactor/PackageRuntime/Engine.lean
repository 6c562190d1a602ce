import CyreneReactor.PackageRuntime.Owner

namespace CyreneReactor.PackageRuntime

/-! What `package_runtime_engine` asks of the runtime status before it builds a serving port.

A failure is known by its code.
-/

structure BindingFailure where
  code : String
deriving DecidableEq, Repr

/-- `ord(character) < 0x20 or ord(character) == 0x7F` -/
def isControl (character : Char) : Bool :=
  decide (character.toNat < 0x20) || character.toNat == 0x7F

/-- `_required_string` -/
def requiredString (document : Document) (field : String) : Except BindingFailure String :=
  match text? document field with
  | none => .error ⟨"PACKAGE_RUNTIME_RECEIPT_INVALID"⟩
  | some value =>
      if value = "" ∨ 2048 < value.length ∨ value.toList.any isControl = true then
        .error ⟨"PACKAGE_RUNTIME_RECEIPT_INVALID"⟩
      else .ok value

/-- `_validate_runtime_status` -/
def validateRuntimeStatus (status : Document) (bindingId : String) :
    Except BindingFailure String := do
  let installationId ← requiredString status "installation_id"
  if reads status "binding_id" bindingId = false ∨ reads status "state" "RUNNING" = false ∨
      isBindingId installationId = false ∨
      isPositiveInt (member? status "generation") = false then
    throw ⟨"PACKAGE_RUNTIME_NOT_RUNNING"⟩
  else
    let _ ← requiredString status "connection_ref"
    pure installationId

/-- The status checks of `package_runtime_engine`: the installation it goes on with, and the
URL of the runtime.  What it asks the runtime and the installation in between is left out. -/
def admitStatus (bindingId : String) (status : Document) :
    Except BindingFailure (String × String) := do
  let installationId ← validateRuntimeStatus status bindingId
  let connectionRef ← requiredString status "connection_ref"
  match controlUrlFromConnectionRef connectionRef with
  | none => throw ⟨"PACKAGE_RUNTIME_CONNECTION_REF_INVALID"⟩
  | some controlUrl => pure (installationId, controlUrl)

end CyreneReactor.PackageRuntime
