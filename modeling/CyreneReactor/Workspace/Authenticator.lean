import CyreneReactor.Workspace.Auth
import Mathlib.Data.List.Perm.Basic

namespace CyreneReactor.Workspace

/-! `WorkspaceServiceAuthenticator`: which bearer stands for which workspace. -/

structure WorkspaceScope where
  organizationId : String
  workspaceId : String
deriving DecidableEq, Repr

structure Credential where
  tokenDigest : List UInt8
  scope : WorkspaceScope
deriving DecidableEq, Repr

def credentialsInvalid : String := "REACTOR_WORKSPACE_CREDENTIAL_MAP_INVALID"

def isHexDigit (char : Char) : Bool :=
  ('0' ≤ char && char ≤ '9') || ('a' ≤ char && char ≤ 'f')

/-- `_SHA256_PATTERN.fullmatch` -/
def isDigestText (text : List Char) : Bool := text.length == 64 && text.all isHexDigit

def hexValue (char : Char) : Nat :=
  if char ≤ '9' then char.toNat - '0'.toNat else char.toNat - 'a'.toNat + 10

/-- `bytes.fromhex`, of lower-case digits. -/
def fromHex : List Char → List UInt8
  | high :: low :: rest => UInt8.ofNat (16 * hexValue high + hexValue low) :: fromHex rest
  | _ => []

section Parsing

variable (isprintable : Char → Bool)

def parseItem : JsonValue → Except String Credential
  | .obj item =>
      if hasKeys item ["tokenSha256", "organizationId", "workspaceId"] then
        match JsonValue.member? item "tokenSha256", JsonValue.member? item "organizationId",
          JsonValue.member? item "workspaceId" with
        | some (.str digestText), some (.str organizationId), some (.str workspaceId) =>
            if isDigestText digestText.toList ∧ IsGrantText isprintable organizationId ∧
                IsGrantText isprintable workspaceId then
              .ok ⟨fromHex digestText.toList, ⟨organizationId, workspaceId⟩⟩
            else .error credentialsInvalid
        | _, _, _ => .error credentialsInvalid
      else .error credentialsInvalid
  | _ => .error credentialsInvalid

/-- The loop over the items; a digest may not have been seen before. -/
def addCredentials (credentials : List Credential) :
    List JsonValue → Except String (List Credential)
  | [] => .ok credentials
  | item :: rest =>
      match parseItem isprintable item with
      | .error message => .error message
      | .ok credential =>
          if credential.tokenDigest ∈ credentials.map Credential.tokenDigest then
            .error credentialsInvalid
          else addCredentials (credentials ++ [credential]) rest

def parseCredentials (document : List (String × JsonValue)) : Except String (List Credential) :=
  if hasKeys document ["version", "credentials"] then
    match JsonValue.member? document "version", JsonValue.member? document "credentials" with
    | some (.int 1), some (.arr items) =>
        if 1 ≤ items.length ∧ items.length ≤ 1024 then addCredentials isprintable [] items
        else .error credentialsInvalid
    | _, _ => .error credentialsInvalid
  else .error credentialsInvalid

/-- `_parse_credential_map`; `loads` decodes JSON, or raises. -/
def parseCredentialMap (loads : String → Option JsonValue) :
    Option String → Except String (List Credential)
  | none => .ok []
  | some raw =>
      if raw = "" then .ok []
      else if 256 * 1024 < raw.utf8ByteSize then .error credentialsInvalid
      else
        match loads raw with
        | some (.obj document) => parseCredentials isprintable document
        | _ => .error credentialsInvalid

end Parsing

/-- What `authorize` reads and writes of a request. -/
structure Request where
  authorization : Option String
  workspaceScope : Option WorkspaceScope
deriving DecidableEq, Repr

structure HttpException where
  statusCode : Nat
  detail : String
  headers : List (String × String)
deriving DecidableEq, Repr

def authUnavailable : HttpException := ⟨503, "REACTOR_WORKSPACE_AUTH_UNAVAILABLE", []⟩

def unauthorized : HttpException :=
  ⟨401, "REACTOR_WORKSPACE_UNAUTHORIZED", [("WWW-Authenticate", "Bearer")]⟩

/-- `token.encode("ascii")`, or no bytes. -/
def asciiBytes (token : List Char) : List UInt8 :=
  if token.all (fun char => decide (char.toNat < 128)) then
    token.map fun char => UInt8.ofNat char.toNat
  else []

def bearer : List Char := "Bearer ".toList

/-- What follows "Bearer " in the header. -/
def tokenOf (authorization : List Char) : List Char :=
  if bearer.isPrefixOf authorization then authorization.drop 7 else []

def tokenIsValid (token : List UInt8) : Bool :=
  decide (32 ≤ token.length) && token.all fun value => 33 ≤ value && value ≤ 126

/-- The scope of the last credential with the digest. -/
def matchedScope (candidate : List UInt8) (credentials : List Credential) :
    Option WorkspaceScope :=
  credentials.foldl
    (fun found credential =>
      if candidate = credential.tokenDigest then some credential.scope else found) none

/-- `authorize`; `sha256` gives the digest of a text's bytes. -/
def authorize (sha256 : List UInt8 → List UInt8) (credentials : List Credential)
    (request : Request) : Except HttpException WorkspaceScope × Request :=
  if credentials = [] then (.error authUnavailable, request)
  else
    let tokenBytes := asciiBytes (tokenOf (request.authorization.getD "").toList)
    let valid := tokenIsValid tokenBytes
    let candidate := sha256 (if valid then tokenBytes else [])
    match valid, matchedScope candidate credentials with
    | true, some scope => (.ok scope, { request with workspaceScope := some scope })
    | _, _ => (.error unauthorized, request)

end CyreneReactor.Workspace
