import CyreneReactor.Diagnostics.Text

namespace CyreneReactor.Diagnostics

/-! Diagnostic records: the strict model a page is made of, and the plain documents
the service writes.
-/

inductive DiagnosticLevel where
  | debug
  | info
  | warn
  | error
deriving DecidableEq, Repr

def DiagnosticLevel.value : DiagnosticLevel → String
  | debug => "debug"
  | info => "info"
  | warn => "warn"
  | error => "error"

def DiagnosticLevel.all : List DiagnosticLevel := [debug, info, warn, error]

inductive DiagnosticSource where
  | product
  | trainer
  | runtime
  | platform
deriving DecidableEq, Repr

def DiagnosticSource.value : DiagnosticSource → String
  | product => "product"
  | trainer => "trainer"
  | runtime => "runtime"
  | platform => "platform"

def DiagnosticSource.all : List DiagnosticSource := [product, trainer, runtime, platform]

inductive DiagnosticStream where
  | stdout
  | stderr
  | combined
deriving DecidableEq, Repr

def DiagnosticStream.value : DiagnosticStream → String
  | stdout => "stdout"
  | stderr => "stderr"
  | combined => "combined"

def DiagnosticStream.all : List DiagnosticStream := [stdout, stderr, combined]

/-- A text with a `max_length`. -/
abbrev BoundedText (limit : Nat) := { text : String // text.length ≤ limit }

structure DiagnosticRecord where
  sequence : { sequence : Int // 1 ≤ sequence }
  timestamp : String
  level : DiagnosticLevel
  source : DiagnosticSource
  stream : DiagnosticStream
  code : Option (BoundedText 200)
  message : BoundedText 8192
  requestId : Option (BoundedText 200)
  operationId : Option (BoundedText 200)
  resourceId : Option (BoundedText 200)
  attemptId : Option (BoundedText 200)
  truncated : Bool

section Readers

variable {α : Type} (printer : Printer)

/-- A `Literal` of texts. -/
def literal? (all : List α) (value : α → String) : JsonValue → Option α
  | .str text => all.find? fun candidate => value candidate == text
  | _ => none

/-- A text without a lone surrogate. -/
def text? : JsonValue → Option String
  | .str text => if printer.encodes text then some text else none
  | _ => none

def boundedText? (limit : Nat) (value : JsonValue) : Option (BoundedText limit) := do
  let text ← text? printer value
  if fits : text.length ≤ limit then some ⟨text, fits⟩ else none

/-- `str | None` -/
def optionalText? (limit : Nat) : JsonValue → Option (Option (BoundedText limit))
  | .null => some none
  | value => (boundedText? printer limit value).map some

/-- A counting number; the store stamps nothing else. -/
def positive? : JsonValue → Option { sequence : Int // 1 ≤ sequence }
  | .int value => if positive : 1 ≤ value then some ⟨value, positive⟩ else none
  | _ => none

/-- A truth value; the service writes nothing else. -/
def bool? : JsonValue → Option Bool
  | .bool value => some value
  | _ => none

/-- A field with a default is only read where the document has it. -/
def defaulted (field : Option JsonValue) (read : JsonValue → Option α) (default : α) :
    Option α :=
  match field with
  | none => some default
  | some value => read value

end Readers

/-- The aliases of the fields and their names, which `populate_by_name` admits too. -/
def fieldNames : List (String × String) :=
  [("sequence", "sequence"), ("timestamp", "timestamp"), ("level", "level"),
    ("source", "source"), ("stream", "stream"), ("code", "code"), ("message", "message"),
    ("requestId", "request_id"), ("operationId", "operation_id"),
    ("resourceId", "resource_id"), ("attemptId", "attempt_id"), ("truncated", "truncated")]

/-- The member a field is read from: its alias goes before its name. -/
def field? (document : Members) (aliased : String) : Option JsonValue :=
  (JsonValue.member? document aliased).or
    ((fieldNames.lookup aliased).bind (JsonValue.member? document))

/-- `DiagnosticRecord.model_validate`; where there is no record it raises. -/
def DiagnosticRecord.modelValidate (printer : Printer) (document : Members) :
    Option DiagnosticRecord := do
  guard (document.all fun member =>
    fieldNames.any fun field => field.1 == member.1 || field.2 == member.1)
  let sequence ← (field? document "sequence").bind positive?
  let timestamp ← (field? document "timestamp").bind (text? printer)
  let level ← defaulted (field? document "level")
    (literal? DiagnosticLevel.all DiagnosticLevel.value) .info
  let source ← defaulted (field? document "source")
    (literal? DiagnosticSource.all DiagnosticSource.value) .product
  let stream ← defaulted (field? document "stream")
    (literal? DiagnosticStream.all DiagnosticStream.value) .combined
  let code ← defaulted (field? document "code") (optionalText? printer 200) none
  let message ← defaulted (field? document "message") (boundedText? printer 8192) ⟨"", by decide⟩
  let requestId ← defaulted (field? document "requestId") (optionalText? printer 200) none
  let operationId ← defaulted (field? document "operationId") (optionalText? printer 200) none
  let resourceId ← defaulted (field? document "resourceId") (optionalText? printer 200) none
  let attemptId ← defaulted (field? document "attemptId") (optionalText? printer 200) none
  let truncated ← defaulted (field? document "truncated") bool? false
  pure { sequence, timestamp, level, source, stream, code, message, requestId, operationId,
         resourceId, attemptId, truncated }

/-- What `record_deployment_diagnostic` appends. -/
def productDocument (deploymentId : Uuid) (now : Datetime) (message level : String)
    (code : Option String) : Members :=
  [("timestamp", .str now.isoformat), ("level", .str level), ("source", .str "product"),
    ("stream", .str "combined"), ("code", (code.map JsonValue.str).getD .null),
    ("message", .str message), ("resourceId", .str deploymentId.str)]

/-- `str(record.get(key, default))` -/
def textOf (printer : Printer) (record : Members) (key default : String) : String :=
  printer.str ((JsonValue.member? record key).getD (.str default))

/-- `record.get(key)` -/
def memberOf (record : Members) (key : String) : JsonValue :=
  (JsonValue.member? record key).getD .null

/-- The document of one runtime record. -/
def runtimeDocument (printer : Printer) (deploymentId : Uuid) (record : Members) : Members :=
  [("timestamp", .str (textOf printer record "timestamp" "")),
    ("level", .str (textOf printer record "level" "info")),
    ("source", .str "runtime"),
    ("stream", .str (textOf printer record "stream" "combined")),
    ("code", memberOf record "code"),
    ("message", .str (String.ofList ((textOf printer record "message" "").toList.take 8192))),
    ("requestId", memberOf record "requestId"),
    ("operationId", memberOf record "operationId"),
    ("resourceId", .str deploymentId.str),
    ("truncated", .bool ((JsonValue.member? record "truncated").any truthy))]

/-- The document that says the runtime lost output. -/
def degradedDocument (deploymentId : Uuid) (now : Datetime) : Members :=
  [("timestamp", .str now.isoformat), ("level", .str "warn"), ("source", .str "runtime"),
    ("stream", .str "combined"), ("code", .str "REACTOR.DIAGNOSTICS.DEGRADED"),
    ("message", .str "The serving runtime could not keep all of its output."),
    ("resourceId", .str deploymentId.str)]

end CyreneReactor.Diagnostics
