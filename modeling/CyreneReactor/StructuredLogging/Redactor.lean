import CyreneReactor.Data.PyText
import CyreneReactor.Data.Substitution
import CyreneReactor.Logging.Attributes

namespace CyreneReactor.StructuredLogging

open Logging Substitution

/-! `SensitiveDataRedactor`: what the structured log shows of a record's fields. -/

/-- `SENSITIVE_FIELD_PATTERNS`, without the `.*` around them: each is one word or another. -/
def sensitiveFieldPatterns : List (List String) :=
  [["password"], ["passwd"], ["secret"], ["token"], ["api_key", "api-key", "apikey"], ["auth"],
    ["credential"], ["private_key", "private-key", "privatekey"],
    ["access_key", "access-key", "accesskey"]]

def isAlnum : Character → Bool
  | .scalar char => char.isAlphanum
  | .surrogate _ => false

/-- `[a-zA-Z0-9\-._~+/]` -/
def isTokenChar (char : Character) : Bool := isAlnum char || (text "-._~+/").contains char

/-- `\s` -/
def isSpace : Character → Bool
  | .scalar char => PyText.isSpace char
  | .surrogate _ => false

def isEquals (char : Character) : Bool := char == .scalar '='

/-- Two parts of a text, before and after the first character that is not of the class. -/
def span (kind : Character → Bool) (value : Text) : Text × Text :=
  (value.takeWhile kind, value.dropWhile kind)

theorem span_append (kind : Character → Bool) (value : Text) :
    (span kind value).1 ++ (span kind value).2 = value := List.takeWhile_append_dropWhile

def apiKeyMark : Text := text "sk-"

def bearerMark : Text := text "Bearer"

/-- `sk-[a-zA-Z0-9]{32,}` -/
def findApiKey (value : Text) : Option (Text × Text) :=
  if apiKeyMark.isPrefixOf value then
    let run := span isAlnum (value.drop 3)
    if 32 ≤ run.1.length then some (apiKeyMark ++ run.1, run.2) else none
  else none

/-- `Bearer\s+[a-zA-Z0-9\-._~+/]+=*` -/
def findBearer (value : Text) : Option (Text × Text) :=
  if bearerMark.isPrefixOf value then
    let spaces := span isSpace (value.drop 6)
    let token := span isTokenChar spaces.2
    let equals := span isEquals token.2
    if spaces.1 ≠ [] ∧ token.1 ≠ [] then
      some (bearerMark ++ spaces.1 ++ token.1 ++ equals.1, equals.2)
    else none
  else none

theorem findApiKey_eq_some {value found rest : Text} (finds : findApiKey value = some (found, rest)) :
    ∃ run, value = apiKeyMark ++ run ++ rest ∧ found = apiKeyMark ++ run ∧ 32 ≤ run.length ∧
      (∀ char ∈ run, isAlnum char = true) ∧ ∀ char ∈ rest.head?, isAlnum char = false := by
  unfold findApiKey at finds
  simp only at finds
  split_ifs at finds with starts long
  obtain ⟨after, rfl⟩ := List.isPrefixOf_iff_prefix.mp starts
  rw [show 3 = apiKeyMark.length by decide, List.drop_left] at finds long
  simp only [Option.some.injEq, Prod.mk.injEq] at finds
  obtain ⟨rfl, rfl⟩ := finds
  refine ⟨_, by rw [List.append_assoc, span_append], rfl, long,
    fun char member => List.mem_takeWhile_imp member, fun char head => ?_⟩
  have stops := List.head?_dropWhile_not isAlnum after
  rw [show (span isAlnum after).2 = after.dropWhile isAlnum by rfl] at head
  rw [Option.mem_def.mp head] at stops
  simpa using stops

theorem findBearer_eq_some {value found rest : Text} (finds : findBearer value = some (found, rest)) :
    ∃ spaces token equals, value = bearerMark ++ spaces ++ token ++ equals ++ rest ∧
      found = bearerMark ++ spaces ++ token ++ equals ∧ spaces ≠ [] ∧ token ≠ [] ∧
      (∀ char ∈ spaces, isSpace char = true) ∧ (∀ char ∈ token, isTokenChar char = true) ∧
      (∀ char ∈ equals, isEquals char = true) ∧
      (equals = [] → ∀ char ∈ rest.head?, isTokenChar char = false) := by
  unfold findBearer at finds
  simp only at finds
  split_ifs at finds with starts some
  obtain ⟨after, rfl⟩ := List.isPrefixOf_iff_prefix.mp starts
  rw [show 6 = bearerMark.length by decide, List.drop_left] at finds some
  simp only [Option.some.injEq, Prod.mk.injEq] at finds
  obtain ⟨rfl, rfl⟩ := finds
  refine ⟨_, _, _, ?_, rfl, some.1, some.2, fun char member => List.mem_takeWhile_imp member,
    fun char member => List.mem_takeWhile_imp member,
    fun char member => List.mem_takeWhile_imp member, fun none char head => ?_⟩
  · simp only [List.append_assoc, span_append]
  · generalize (span isSpace after).2 = afterSpaces at none head
    have whole := span_append isEquals (span isTokenChar afterSpaces).2
    rw [none, List.nil_append] at whole
    rw [whole] at head
    have stops := List.head?_dropWhile_not isTokenChar afterSpaces
    rw [show (span isTokenChar afterSpaces).2 = afterSpaces.dropWhile isTokenChar by rfl] at head
    rw [Option.mem_def.mp head] at stops
    simpa using stops

def apiKey : Pattern Character where
  find := findApiKey
  splits finds := by
    obtain ⟨run, same, isFound, _⟩ := findApiKey_eq_some finds
    rw [isFound, same]
  nonempty finds := by
    obtain ⟨run, _, isFound, _⟩ := findApiKey_eq_some finds
    rw [isFound]
    simp [apiKeyMark, text]

def bearerToken : Pattern Character where
  find := findBearer
  splits finds := by
    obtain ⟨spaces, token, equals, same, isFound, _⟩ := findBearer_eq_some finds
    rw [isFound, same]
  nonempty finds := by
    obtain ⟨spaces, token, equals, _, isFound, _⟩ := findBearer_eq_some finds
    rw [isFound]
    simp [bearerMark, text]

inductive Value where
  | dict (members : List (Text × Value))
  | list (items : List Value)
  | text (value : Text)
  | scalar (literal : String)

/-- `redact_value`, of a text. -/
def redactValue (value : Text) : Text :=
  if value.length ≤ 8 then text "***"
  else if value.length ≤ 16 then
    value.take 2 ++ text "..." ++ value.drop (value.length - 2)
  else value.take 4 ++ text "..." ++ value.drop (value.length - 4)

def redactApiKeys (value : Text) : Text :=
  sub bearerToken redactValue (sub apiKey redactValue value)

section Fields

/- Whether a character of a field name is a character of a pattern but for its case, and what
`str` makes of a value that is no text. -/
variable (sameLetter : Char → Character → Bool) (str : Value → Text)

/-- The word stands at the start of the text. -/
def startsWith : List Char → Text → Bool
  | [], _ => true
  | _ :: _, [] => false
  | letter :: word, char :: rest => sameLetter letter char && startsWith word rest

/-- `regex.match` with `.*` before the word: what comes before it has no line end. -/
def matchesField (word : List Char) : Text → Bool
  | [] => startsWith sameLetter word []
  | char :: rest =>
      startsWith sameLetter word (char :: rest) ||
        (char != .scalar '\n' && matchesField word rest)

def isSensitiveField (fieldName : Text) : Bool :=
  sensitiveFieldPatterns.any fun words =>
    words.any fun word => matchesField sameLetter word.toList fieldName

/-- `str(value)` -/
def strOf : Value → Text
  | .text value => value
  | value => str value

mutual

def redactDict : List (Text × Value) → List (Text × Value)
  | [] => []
  | (key, value) :: rest =>
      (key, if isSensitiveField sameLetter key then .text (redactValue (strOf str value))
        else redactMember value) :: redactDict rest

/-- What becomes of the value of a field that is not sensitive. -/
def redactMember : Value → Value
  | .dict members => .dict (redactDict members)
  | .list items => .list (redactItems items)
  | .text value => .text (redactApiKeys value)
  | .scalar literal => .scalar literal

/-- `[self.redact_dict(item) if isinstance(item, dict) else item for item in value]` -/
def redactItems : List Value → List Value
  | [] => []
  | .dict members :: rest => .dict (redactDict members) :: redactItems rest
  | .list items :: rest => .list items :: redactItems rest
  | .text value :: rest => .text value :: redactItems rest
  | .scalar literal :: rest => .scalar literal :: redactItems rest

end

end Fields

end CyreneReactor.StructuredLogging
