import CyreneReactor.Data.PyText
import CyreneReactor.PackageRuntime.Engine
import CyreneReactor.Remote.Port

namespace CyreneReactor.PackageRuntime

open Interaction Remote

/-! `package_runtime_engine`: what is read of the platform, the credential file and the
runtime's endpoint before a serving port of a configured binding is handed out.

What any of them answers is left open.
-/

def capabilityId : String := "execution.engine.v1"

def interfaceVersion : String := "1"

def httpTransport : String := "http"

def controlProtocol : String := "cy-package-runtime.control.v1"

/-- What `authority` answers, and the client's `catalog_generation` after it. -/
structure AuthorityReply where
  document : JsonValue
  catalogGeneration : Option Int

/-- A file as `os.open` without links and `os.fstat` show it; a file that is no UTF-8 has
no text. -/
structure CredentialFile where
  regular : Bool
  permissions : Nat
  uid : Nat
  text : Option String

inductive Inquiry where
  | authority
  | runtimeStatus (bindingId : String)
  | getInstallation (installationId : String)
  | openCredential (path : String)
  | send (request : HttpRequest)

/-- What raises has no answer. -/
def Inquiry.Answer : Inquiry → Type
  | authority => Option AuthorityReply
  | runtimeStatus _ | getInstallation _ => Option JsonValue
  | openCredential _ => Option CredentialFile
  | send _ => HttpReply

abbrev inquiries : Signature := ⟨Inquiry, Inquiry.Answer⟩

abbrev Admitting := Fallible inquiries BindingFailure

def inquire (inquiry : Inquiry) : Admitting inquiry.Answer :=
  Fallible.perform (show inquiries.Op from inquiry)

def isString : JsonValue → Bool
  | .str _ => true
  | _ => false

/-- The checks of `_current_authority_generation`. -/
def checkAuthority : Option AuthorityReply → Except BindingFailure Int
  | none => .error ⟨"PACKAGE_RUNTIME_AUTHORITY_UNAVAILABLE"⟩
  | some ⟨.obj authority, catalogGeneration⟩ =>
      if reads authority "authority" "platform_package_runtime" = false ∨
          reads authority "protocol_version" controlProtocol = false then
        .error ⟨"PACKAGE_RUNTIME_AUTHORITY_INVALID"⟩
      else
        match member? authority "catalog_generation", member? authority "capabilities" with
        | some (.int generation), some (.arr capabilities) =>
            if generation ≤ 0 ∨ catalogGeneration ≠ some generation ∨
                capabilities.isEmpty = true ∨ capabilities.all isString = false then
              .error ⟨"PACKAGE_RUNTIME_AUTHORITY_INVALID"⟩
            else .ok generation
        | _, _ => .error ⟨"PACKAGE_RUNTIME_AUTHORITY_INVALID"⟩
  | some _ => .error ⟨"PACKAGE_RUNTIME_AUTHORITY_INVALID"⟩

/-- A read that has to answer an object. -/
def checkObject (refusal : String) : Option JsonValue → Except BindingFailure Document
  | none => .error ⟨"PACKAGE_RUNTIME_OWNER_READ_DENIED"⟩
  | some (.obj document) => .ok document
  | some _ => .error ⟨refusal⟩

/-- `_PACKAGE_VERSION` -/
def isPackageVersion (version : String) : Bool :=
  decide (1 ≤ version.length) && decide (version.length ≤ 128) &&
    version.toList.all fun ch => ch.isAlphanum || ch == '.' || ch == '+' || ch == '-'

/-- `_SHA256` of what `str` makes of the value; only of a text can it be a digest. -/
def isSha256 : Option JsonValue → Bool
  | some (.str digest) =>
      "sha256:".toList.isPrefixOf digest.toList && digest.length == 71 &&
        (digest.toList.drop 7).all fun ch =>
          ch.isDigit || (decide ('a'.toNat ≤ ch.toNat) && decide (ch.toNat ≤ 'f'.toNat))
  | _ => false

def isCapable : Option JsonValue → Bool
  | some (.arr capabilities) =>
      capabilities.all isString && capabilities.any fun item => isText item capabilityId
  | _ => false

def isVerified : Option JsonValue → Bool
  | some (.obj verification) => isSha256 (member? verification "manifest_digest")
  | _ => false

def isRecordVersion : Option JsonValue → Bool
  | some (.int version) => version == 1
  | _ => false

/-- `_validate_installation` -/
def validateInstallation (installation : Document) (installationId : String) :
    Except BindingFailure String :=
  match requiredString installation "package_version" with
  | .error failure => .error failure
  | .ok packageVersion =>
      if isRecordVersion (member? installation "record_version") = false ∨
          reads installation "installation_id" installationId = false ∨
          reads installation "package_id" packageId = false ∨
          isPackageVersion packageVersion = false ∨
          reads installation "state" "INSTALLED" = false ∨
          isCapable (member? installation "capabilities") = false ∨
          isVerified (member? installation "verification") = false ∨
          isSha256 (member? installation "artifact_digest") = false ∨
          isSha256 (member? installation "archive_digest") = false then
        .error ⟨"PACKAGE_RUNTIME_INSTALLATION_MISMATCH"⟩
      else .ok packageVersion

/-- `control_url_from_connection_ref` of the status's reference. -/
def controlUrlOf (status : Document) : Except BindingFailure String :=
  match requiredString status "connection_ref" with
  | .error failure => .error failure
  | .ok connectionRef =>
      match controlUrlFromConnectionRef connectionRef with
      | none => .error ⟨"PACKAGE_RUNTIME_CONNECTION_REF_INVALID"⟩
      | some controlUrl => .ok controlUrl

/-- `_read_owner_protected_credential`, for a process of user `euid`. -/
def readOwnerProtectedCredential (euid : Nat) : Option CredentialFile → Except Raised String
  | none => .error valueError
  | some file =>
      if file.regular = false ∨ file.permissions ∉ [0o400, 0o600] ∨ file.uid ∉ [euid, 0] then
        .error valueError
      else
        match file.text with
        | none => .error valueError
        | some text =>
            let token := PyText.strip text.toList
            if token.length < 32 then .error valueError else .ok (String.ofList token)

/-- The port on the credential that was read. -/
def buildEngine (contracts : Contracts) (euid : Nat) (controlUrl : String)
    (file : Option CredentialFile) : Except BindingFailure RemoteServingExecutionPort :=
  match RemoteServingExecutionPort.create contracts controlUrl
      (readOwnerProtectedCredential euid file) with
  | .error _ => .error ⟨"PACKAGE_RUNTIME_CREDENTIAL_INVALID"⟩
  | .ok engine => .ok engine

/-- What a verified endpoint says of itself. -/
def expectedMetadata (packageVersion : String) : Document :=
  [("package_id", .str packageId), ("package_version", .str packageVersion),
    ("capability", .str capabilityId), ("interface_version", .str interfaceVersion),
    ("transport", .str httpTransport)]

/-- `engine.request("GET", "/metadata")` and `_validate_endpoint_metadata` -/
def checkMetadata (engine : RemoteServingExecutionPort) (packageVersion : String)
    (reply : HttpReply) : Except BindingFailure Unit :=
  match readReply engine.contracts.printer reply with
  | .error _ => .error ⟨"PACKAGE_RUNTIME_METADATA_UNAVAILABLE"⟩
  | .ok metadata =>
      if pyEq (.obj metadata) (.obj (expectedMetadata packageVersion)) = false then
        .error ⟨"PACKAGE_RUNTIME_METADATA_MISMATCH"⟩
      else .ok ()

/-- `latest.get(field) == status.get(field)` -/
def agrees (latest status : Document) (field : String) : Bool :=
  pyEq ((member? latest field).getD .null) ((member? status field).getD .null)

/-- Whether the second status is of the runtime the first one was of. -/
def checkUnchanged (bindingId installationId : String) (status latest : Document) :
    Except BindingFailure Unit :=
  match validateRuntimeStatus latest bindingId with
  | .error failure => .error failure
  | .ok _ =>
      if reads latest "installation_id" installationId = false ∨
          agrees latest status "generation" = false ∨
          agrees latest status "connection_ref" = false then
        .error ⟨"PACKAGE_RUNTIME_RECEIPT_CHANGED"⟩
      else .ok ()

/-- What `package_runtime_engine` is called with: the binding, its configuration and the
client's `source_id`. -/
structure Admission where
  bindingId : String
  configuration : Document
  clientSource : Option String
  contracts : Contracts
  euid : Nat

namespace Admission

variable (admission : Admission)

/-- `PackageRuntimeServingBindingConfiguration` of the configuration, which allows no other
member. -/
def credentialFile : Option String :=
  match text? admission.configuration "credential_file" with
  | some path =>
      if "/".toList.isPrefixOf path.toList ∧
          ∀ member ∈ admission.configuration, member.1 = "credential_file" then some path
      else none
  | none => none

/-- What is checked before anything is read. -/
def checkConfiguration : Except BindingFailure String :=
  if isBindingId admission.bindingId = false then .error ⟨"PACKAGE_RUNTIME_BINDING_ID_INVALID"⟩
  else
    match admission.credentialFile with
    | none => .error ⟨"PACKAGE_RUNTIME_CONFIGURATION_INVALID"⟩
    | some path =>
        if admission.clientSource ≠ some sourceId then .error ⟨"PACKAGE_RUNTIME_SOURCE_MISMATCH"⟩
        else .ok path

def currentAuthorityGeneration : Admitting Int :=
  inquire .authority >>= fun reply => Fallible.ofExcept (checkAuthority reply)

def readRuntimeStatus : Admitting Document :=
  inquire (.runtimeStatus admission.bindingId) >>= fun answer =>
    Fallible.ofExcept (checkObject "PACKAGE_RUNTIME_RECEIPT_INVALID" answer)

def readInstallation (installationId : String) : Admitting Document :=
  inquire (.getInstallation installationId) >>= fun answer =>
    Fallible.ofExcept (checkObject "PACKAGE_RUNTIME_INSTALLATION_INVALID" answer)

def openEngine (path controlUrl : String) : Admitting RemoteServingExecutionPort :=
  inquire (.openCredential path) >>= fun file =>
    Fallible.ofExcept (buildEngine admission.contracts admission.euid controlUrl file)

def metadataRequest (engine : RemoteServingExecutionPort) : HttpRequest :=
  ⟨.get, engine.base ++ "/metadata", engine.token, none⟩

def verifyMetadata (engine : RemoteServingExecutionPort) (packageVersion : String) :
    Admitting Unit :=
  inquire (.send (metadataRequest engine)) >>= fun reply =>
    Fallible.ofExcept (checkMetadata engine packageVersion reply)

def checkAuthorityUnchanged (generation latest : Int) : Except BindingFailure Unit :=
  if latest ≠ generation then .error ⟨"PACKAGE_RUNTIME_AUTHORITY_CHANGED"⟩ else .ok ()

def packageRuntimeEngine : Admitting RemoteServingExecutionPort := do
  let path ← Fallible.ofExcept admission.checkConfiguration
  let generation ← currentAuthorityGeneration
  let status ← admission.readRuntimeStatus
  let installationId ← Fallible.ofExcept (validateRuntimeStatus status admission.bindingId)
  let installation ← readInstallation installationId
  let packageVersion ← Fallible.ofExcept (validateInstallation installation installationId)
  let controlUrl ← Fallible.ofExcept (controlUrlOf status)
  let engine ← admission.openEngine path controlUrl
  verifyMetadata engine packageVersion
  let latest ← admission.readRuntimeStatus
  Fallible.ofExcept (checkUnchanged admission.bindingId installationId status latest)
  let latestGeneration ← currentAuthorityGeneration
  Fallible.ofExcept (checkAuthorityUnchanged generation latestGeneration)
  pure engine

end Admission

end CyreneReactor.PackageRuntime
