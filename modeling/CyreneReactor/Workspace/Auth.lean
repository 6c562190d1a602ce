import CyreneReactor.Data.PyText
import CyreneReactor.ModelImports.Store

namespace CyreneReactor.Workspace

open PyText

/-! `WorkspaceServingBindingGrantSet`: which workspace may use which serving binding. -/

/-- `set(members) == set(keys)` -/
def hasKeys (members : List (String × JsonValue)) (keys : List String) : Bool :=
  members.all (fun member => keys.contains member.1) &&
    keys.all fun key => (JsonValue.member? members key).isSome

def grantsInvalid : String := "REACTOR_WORKSPACE_SERVING_BINDING_GRANTS_INVALID"

section Parsing

variable (isprintable : Char → Bool)

/-- A text that may stand in a grant. -/
def IsGrantText (text : String) : Prop :=
  1 ≤ text.toList.length ∧ text.toList.length ≤ 200 ∧ text.toList = strip text.toList ∧
    text.toList.all isprintable = true

instance (text : String) : Decidable (IsGrantText isprintable text) :=
  inferInstanceAs (Decidable (_ ∧ _ ∧ _ ∧ _))

def grantText (members : List (String × JsonValue)) (key : String) : Except String String :=
  match JsonValue.member? members key with
  | some (.str text) => if IsGrantText isprintable text then .ok text else .error grantsInvalid
  | _ => .error grantsInvalid

def parseGrant : JsonValue → Except String (String × String × String)
  | .obj item =>
      if hasKeys item ["servingBindingId", "organizationId", "workspaceId"] then do
        let bindingId ← grantText isprintable item "servingBindingId"
        let organizationId ← grantText isprintable item "organizationId"
        let workspaceId ← grantText isprintable item "workspaceId"
        pure (bindingId, organizationId, workspaceId)
      else .error grantsInvalid
  | _ => .error grantsInvalid

/-- The loop over the items; a grant may not be there twice. -/
def addGrants (grants : Grants) : List JsonValue → Except String Grants
  | [] => .ok grants
  | item :: rest =>
      match parseGrant isprintable item with
      | .error message => .error message
      | .ok grant =>
          if grants.contains grant then .error grantsInvalid
          else addGrants (grants ++ [grant]) rest

def parseDocument (document : List (String × JsonValue)) : Except String Grants :=
  if hasKeys document ["version", "grants"] then
    match JsonValue.member? document "version", JsonValue.member? document "grants" with
    | some (.int 1), some (.arr items) =>
        if items.length ≤ 4096 then addGrants isprintable [] items else .error grantsInvalid
    | _, _ => .error grantsInvalid
  else .error grantsInvalid

/-- `_parse_grant_map`; `loads` decodes JSON, or raises. -/
def parseGrantMap (loads : String → Option JsonValue) : Option String → Except String Grants
  | none => .ok []
  | some raw =>
      if raw = "" then .ok []
      else if 256 * 1024 < raw.utf8ByteSize then .error grantsInvalid
      else
        match loads raw with
        | some (.obj document) => parseDocument isprintable document
        | _ => .error grantsInvalid

end Parsing

section Parsed

variable {isprintable : Char → Bool} {grants parsed : Grants}

theorem grantText_eq_ok {members : List (String × JsonValue)} {key text : String}
    (read : grantText isprintable members key = .ok text) : IsGrantText isprintable text := by
  unfold grantText at read
  split at read
  · split at read
    · cases read
      assumption
    · cases read
  · cases read

theorem parseGrant_eq_ok {item : JsonValue} {grant : String × String × String}
    (read : parseGrant isprintable item = .ok grant) : IsGrantText isprintable grant.1 := by
  unfold parseGrant at read
  split at read
  · rename_i members
    split at read
    · cases binding : grantText isprintable members "servingBindingId" with
      | error message => simp [binding, bind, Except.bind] at read
      | ok bindingId =>
          cases organization : grantText isprintable members "organizationId" with
          | error message => simp [binding, organization, bind, Except.bind] at read
          | ok organizationId =>
              cases workspace : grantText isprintable members "workspaceId" with
              | error message =>
                  simp [binding, organization, workspace, bind, Except.bind] at read
              | ok workspaceId =>
                  simp only [binding, organization, workspace, bind, Except.bind, pure,
                    Except.pure, Except.ok.injEq] at read
                  subst read
                  exact grantText_eq_ok binding
    · cases read
  · cases read

theorem addGrants_eq_ok {items : List JsonValue}
    (added : addGrants isprintable grants items = .ok parsed)
    (before : ∀ grant ∈ grants, IsGrantText isprintable grant.1) :
    ∀ grant ∈ parsed, IsGrantText isprintable grant.1 := by
  induction items generalizing grants with
  | nil =>
      cases added
      exact before
  | cons item rest ih =>
      unfold addGrants at added
      split at added
      · cases added
      · rename_i grant read
        split at added
        · cases added
        · apply ih added
          intro other member
          rcases List.mem_append.mp member with old | new
          · exact before other old
          · rw [List.mem_singleton.mp new]
            exact parseGrant_eq_ok read

/-- A binding that the parser accepts in a grant has a grantable id. -/
theorem parseGrantMap_eq_ok {loads : String → Option JsonValue} {raw : Option String}
    (accepted : parseGrantMap isprintable loads raw = .ok parsed) :
    ∀ grant ∈ parsed, IsGrantText isprintable grant.1 := by
  unfold parseGrantMap at accepted
  split at accepted
  · cases accepted
    exact fun grant member => by cases member
  · split at accepted
    · cases accepted
      exact fun grant member => by cases member
    · split at accepted
      · cases accepted
      · split at accepted
        · rename_i document _
          unfold parseDocument at accepted
          split at accepted
          · split at accepted
            · split at accepted
              · exact addGrants_eq_ok accepted fun grant member => by cases member
              · cases accepted
            · cases accepted
          · cases accepted
        · cases accepted

end Parsed

end CyreneReactor.Workspace
