import Mathlib.Data.List.Infix

namespace CyreneReactor.Logging

/-! The attributes of a Product log record, and the redaction of their secrets. -/

/-- A character of a Python text: a Unicode scalar value, or a surrogate that stands alone. -/
inductive Character where
  | scalar (char : Char)
  | surrogate (unit : Fin 0x800)
deriving DecidableEq, Repr

abbrev Text := List Character

def text (literal : String) : Text := literal.toList.map .scalar

/-- A scalar that is no text is known by the JSON text it is written as. -/
inductive Attribute where
  | text (value : Text)
  | literal (json : String)
  | mapping (members : List (Text × Attribute))
  | list (items : List Attribute)
  | tuple (items : List Attribute)

/-- `_SENSITIVE_KEY_SUBSTRINGS` -/
def sensitiveKeySubstrings : List String :=
  ["authorization", "auth", "token", "api_key", "apikey", "secret", "password", "cookie",
    "client_secret", "private_key"]

def redactionMark : Attribute := .text (text "[REDACTED]")

section Redaction

-- `str.lower`
variable (lower : Text → Text)

def isSensitiveKey (key : Text) : Bool :=
  let lower := (lower key).map fun character =>
    if character = .scalar '-' then .scalar '_' else character
  if lower = text "tokens" ∨ text "_tokens" <:+ lower ∨ lower = text "token_count" then false
  else sensitiveKeySubstrings.any fun sub => decide (text sub <:+: lower)

mutual

/-- `redact_attributes` -/
def redactAttributes : List (Text × Attribute) → List (Text × Attribute)
  | [] => []
  | (key, value) :: rest =>
      (key, if isSensitiveKey lower key then redactionMark else redactValue value) ::
        redactAttributes rest

/-- What becomes of the value of a key that is not sensitive. -/
def redactValue : Attribute → Attribute
  | .mapping members => .mapping (redactAttributes members)
  | .list items => .list (redactItems items)
  | .tuple items => .list (redactItems items)
  | .text value => .text value
  | .literal json => .literal json

/-- `[redact_attributes(item) if isinstance(item, Mapping) else item for item in v]` -/
def redactItems : List Attribute → List Attribute
  | [] => []
  | .mapping members :: rest => .mapping (redactAttributes members) :: redactItems rest
  | .list items :: rest => .list items :: redactItems rest
  | .tuple items :: rest => .tuple items :: redactItems rest
  | .text value :: rest => .text value :: redactItems rest
  | .literal json :: rest => .literal json :: redactItems rest

end

end Redaction

end CyreneReactor.Logging
