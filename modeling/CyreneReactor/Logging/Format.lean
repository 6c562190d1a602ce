import CyreneReactor.Clock
import CyreneReactor.Logging.Attributes

namespace CyreneReactor.Logging

/-! One line of the Product's log. -/

def escapeChar (char : Char) : Text :=
  if char = '"' then text "\\\""
  else if char = '\\' then text "\\\\"
  else if char = '\n' then text "\\n"
  else if char = '\r' then text "\\r"
  else if char = '\t' then text "\\t"
  else if char.toNat = 0x0C then text "\\f"
  else if char.toNat = 0x08 then text "\\b"
  else if char.toNat < 0x20 then
    text "\\u00" ++ [.scalar (Nat.digitChar (char.toNat / 16)),
      .scalar (Nat.digitChar (char.toNat % 16))]
  else [.scalar char]

/-- `json.dumps` with `ensure_ascii=False`, character by character. -/
def escape : Character → Text
  | .surrogate unit => [.surrogate unit]
  | .scalar char => escapeChar char

def quoted (value : Text) : Text := text "\"" ++ value.flatMap escape ++ text "\""

mutual

def dumps : Attribute → Text
  | .text value => quoted value
  | .literal json => text json
  | .mapping members => text "\x7b" ++ dumpsMembers members ++ text "\x7d"
  | .list items => text "[" ++ dumpsItems items ++ text "]"
  | .tuple items => text "[" ++ dumpsItems items ++ text "]"

def dumpsMembers : List (Text × Attribute) → Text
  | [] => []
  | (key, value) :: rest =>
      quoted key ++ text ":" ++ dumps value ++ (if rest.isEmpty then [] else text ",") ++
        dumpsMembers rest

def dumpsItems : List Attribute → Text
  | [] => []
  | item :: rest =>
      dumps item ++ (if rest.isEmpty then [] else text ",") ++ dumpsItems rest

end

def Character.utf8Size : Character → Nat
  | .scalar char => char.utf8Size
  | .surrogate _ => 3

/-- How many bytes the text takes.  A lone surrogate has no encoding; it counts as the code unit
it is. -/
def utf8Size (value : Text) : Nat := (value.map Character.utf8Size).sum

/-- `value.encode("utf-8")` does not raise. -/
def Encodable (value : Text) : Prop := ∀ unit, .surrogate unit ∉ value

instance (value : Text) : Decidable (Encodable value) :=
  inferInstanceAs (Decidable (∀ _ : Fin 0x800, _))

def maxRecordBytes : Nat := 32 * 1024

def maxMessageBytes : Nat := 4 * 1024

/-- `datetime.now(UTC).isoformat().replace("+00:00", "Z")` -/
def timestamp (now : Datetime) : String :=
  padded 4 now.year ++ "-" ++ padded 2 now.month ++ "-" ++ padded 2 now.day ++ "T" ++
    padded 2 now.hour ++ ":" ++ padded 2 now.minute ++ ":" ++ padded 2 now.second ++
    (if now.microsecond = 0 then "" else "." ++ padded 6 now.microsecond) ++ "Z"

/-- What `format_cyrene_log` is given. -/
structure LogCall where
  level : Text
  eventName : Text
  message : Text
  serviceName : Text
  traceId : Option Text
  spanId : Option Text
  attributes : Option (List (Text × Attribute))

structure UnicodeEncodeError where
deriving DecidableEq, Repr

section Format

-- `str.upper` and `str.lower`, the clock, and `_INSTANCE_ID`
variable (upper lower : Text → Text) (now : Datetime) (instanceId : Uuid)

/-- `message[:MAX_MESSAGE_BYTES]` -/
def truncated (message : Text) : Text := message.take maxMessageBytes

/-- `if trace_id: record["trace_id"] = trace_id` -/
def optional (key : String) : Option Text → List (Text × Attribute)
  | none => []
  | some [] => []
  | some (first :: rest) => [(text key, .text (first :: rest))]

/-- The record without its attributes. -/
def baseRecord (call : LogCall) : List (Text × Attribute) :=
  [(text "schema_version", .literal "1"),
    (text "timestamp", .text (text (timestamp now))),
    (text "level", .text (upper call.level)),
    (text "event.name", .text call.eventName),
    (text "service.name", .text call.serviceName),
    (text "service.instance.id", .text (text instanceId.str)),
    (text "message", .text (truncated call.message))] ++
    optional "trace_id" call.traceId ++ optional "span_id" call.spanId

def fullRecord (call : LogCall) : List (Text × Attribute) :=
  match redactAttributes lower (call.attributes.getD []) with
  | [] => baseRecord upper now instanceId call
  | first :: rest =>
      baseRecord upper now instanceId call ++ [(text "attributes", .mapping (first :: rest))]

def boundedRecord (call : LogCall) : List (Text × Attribute) :=
  baseRecord upper now instanceId call ++
    [(text "attributes", .mapping [(text "truncated", .literal "true")])]

/-- The record that is written at last. -/
def loggedRecord (call : LogCall) : Except UnicodeEncodeError (List (Text × Attribute)) :=
  let record := fullRecord upper lower now instanceId call
  let serialized := dumps (.mapping record)
  if Encodable serialized then
    if maxRecordBytes < utf8Size serialized then
      .ok (boundedRecord upper now instanceId call)
    else .ok record
  else .error ⟨⟩

/-- `format_cyrene_log` -/
def formatCyreneLog (call : LogCall) : Except UnicodeEncodeError Text :=
  (loggedRecord upper lower now instanceId call).map fun record => dumps (.mapping record)

end Format

end CyreneReactor.Logging
