import CyreneReactor.Logging.Format

namespace CyreneReactor.Logging

/-! How large a line of the Product's log gets. -/

section Texts

variable {left right value : Text}

@[simp] theorem utf8Size_nil : utf8Size [] = 0 := rfl

@[simp] theorem utf8Size_append :
    utf8Size (left ++ right) = utf8Size left + utf8Size right := by
  simp [utf8Size]

theorem utf8Size_replicate (count : Nat) (character : Character) :
    utf8Size (List.replicate count character) = count * character.utf8Size := by
  simp [utf8Size]

@[simp] theorem encodable_nil : Encodable [] := by
  intro unit member
  cases member

theorem encodable_replicate (count : Nat) (char : Char) :
    Encodable (List.replicate count (.scalar char)) := by
  intro unit member
  cases List.eq_of_mem_replicate member

@[simp] theorem encodable_append :
    Encodable (left ++ right) ↔ Encodable left ∧ Encodable right := by
  simp only [Encodable, List.mem_append, not_or, forall_and]

theorem encodable_cons {first : Character} :
    Encodable (first :: value) ↔ Encodable [first] ∧ Encodable value := by
  rw [← encodable_append, List.singleton_append]

@[simp] theorem encodable_text (literal : String) : Encodable (text literal) := by
  intro unit member
  simp [text] at member

theorem encodable_scalar (char : Char) : Encodable [.scalar char] := by
  intro unit member
  simp at member

theorem length_text (literal : String) : (text literal).length = literal.length := by
  simp [text, String.length_toList]

theorem utf8Size_escapeChar (char : Char) : utf8Size (escapeChar char) ≤ 6 := by
  have one := char.utf8Size_le_four
  have hexadecimal : ∀ code < 0x20, utf8Size (text "\\u00" ++
      [.scalar (Nat.digitChar (code / 16)), .scalar (Nat.digitChar (code % 16))]) ≤ 6 := by
    decide
  unfold escapeChar
  split_ifs with _ _ _ _ _ _ _ control
  · decide
  · decide
  · decide
  · decide
  · decide
  · decide
  · decide
  · exact hexadecimal _ control
  · simp only [utf8Size, List.map_cons, List.map_nil, List.sum_cons, List.sum_nil,
      Character.utf8Size]
    omega

theorem utf8Size_escape (character : Character) : utf8Size (escape character) ≤ 6 := by
  cases character with
  | surrogate unit =>
      show 3 ≤ 6
      decide
  | scalar char => exact utf8Size_escapeChar char

theorem encodable_escape (character : Character) :
    Encodable (escape character) ↔ Encodable [character] := by
  cases character with
  | surrogate unit => rfl
  | scalar char =>
      simp only [encodable_scalar, iff_true, escape]
      unfold escapeChar
      split_ifs
      · exact encodable_text _
      · exact encodable_text _
      · exact encodable_text _
      · exact encodable_text _
      · exact encodable_text _
      · exact encodable_text _
      · exact encodable_text _
      · rw [encodable_append]
        refine ⟨encodable_text _, ?_⟩
        intro unit member
        simp at member
      · exact encodable_scalar char

/-- A text of JSON takes at most six bytes for each character. -/
theorem utf8Size_quoted (value : Text) : utf8Size (quoted value) ≤ 6 * value.length + 2 := by
  have inner : utf8Size (value.flatMap escape) ≤ 6 * value.length := by
    induction value with
    | nil => simp
    | cons first rest ih =>
        have one := utf8Size_escape first
        rw [List.flatMap_cons, utf8Size_append, List.length_cons]
        omega
  have marks : utf8Size (text "\"") = 1 := by decide
  simp only [quoted, utf8Size_append, marks]
  omega

@[simp] theorem encodable_quoted : Encodable (quoted value) ↔ Encodable value := by
  simp only [quoted, encodable_append, encodable_text, true_and, and_true]
  induction value with
  | nil => simp
  | cons first rest ih =>
      rw [List.flatMap_cons, encodable_append, encodable_escape, ih, ← encodable_cons]

end Texts

mutual

/-- No key and no text has a lone surrogate. -/
def Plain : Attribute → Prop
  | .text value => Encodable value
  | .literal _ => True
  | .mapping members => PlainMembers members
  | .list items => PlainItems items
  | .tuple items => PlainItems items

def PlainMembers : List (Text × Attribute) → Prop
  | [] => True
  | (key, value) :: rest => Encodable key ∧ Plain value ∧ PlainMembers rest

def PlainItems : List Attribute → Prop
  | [] => True
  | item :: rest => Plain item ∧ PlainItems rest

end

theorem encodable_separator {rest : Bool} : Encodable (if rest then [] else text ",") := by
  cases rest with
  | false => exact encodable_text ","
  | true => exact encodable_nil

mutual

theorem encodable_dumps : ∀ value, Encodable (dumps value) ↔ Plain value
  | .text value => by rw [dumps, Plain, encodable_quoted]
  | .literal json => by simp [dumps, Plain]
  | .mapping members => by
      simp only [dumps, Plain, encodable_append, encodable_text, true_and, and_true,
        encodable_dumpsMembers members]
  | .list items => by
      simp only [dumps, Plain, encodable_append, encodable_text, true_and, and_true,
        encodable_dumpsItems items]
  | .tuple items => by
      simp only [dumps, Plain, encodable_append, encodable_text, true_and, and_true,
        encodable_dumpsItems items]

theorem encodable_dumpsMembers : ∀ members,
    Encodable (dumpsMembers members) ↔ PlainMembers members
  | [] => by simp [dumpsMembers, PlainMembers]
  | (key, value) :: rest => by
      simp only [dumpsMembers, PlainMembers, encodable_append, encodable_quoted, encodable_text,
        encodable_separator, and_true, encodable_dumps value, encodable_dumpsMembers rest,
        and_assoc]

theorem encodable_dumpsItems : ∀ items, Encodable (dumpsItems items) ↔ PlainItems items
  | [] => by simp [dumpsItems, PlainItems]
  | item :: rest => by
      simp only [dumpsItems, PlainItems, encodable_append, encodable_separator, and_true,
        encodable_dumps item, encodable_dumpsItems rest]

end

section Kept

variable (lower : Text → Text)

mutual

/-- No key has a lone surrogate, and no text that is not redacted. -/
def KeptPlain : List (Text × Attribute) → Prop
  | [] => True
  | (key, value) :: rest =>
      Encodable key ∧ (if isSensitiveKey lower key then True else KeptPlainValue value) ∧
        KeptPlain rest

def KeptPlainValue : Attribute → Prop
  | .mapping members => KeptPlain members
  | .list items => KeptPlainItems items
  | .tuple items => KeptPlainItems items
  | .text value => Encodable value
  | .literal _ => True

def KeptPlainItems : List Attribute → Prop
  | [] => True
  | .mapping members :: rest => KeptPlain members ∧ KeptPlainItems rest
  | .list items :: rest => PlainItems items ∧ KeptPlainItems rest
  | .tuple items :: rest => PlainItems items ∧ KeptPlainItems rest
  | .text value :: rest => Encodable value ∧ KeptPlainItems rest
  | .literal _ :: rest => KeptPlainItems rest

end

mutual

theorem plain_redactAttributes : ∀ members,
    PlainMembers (redactAttributes lower members) ↔ KeptPlain lower members
  | [] => by simp [redactAttributes, PlainMembers, KeptPlain]
  | (key, value) :: rest => by
      rw [redactAttributes, PlainMembers, KeptPlain, plain_redactAttributes rest]
      by_cases sensitive : isSensitiveKey lower key = true
      · simp [sensitive, redactionMark, Plain]
      · simp [sensitive, plain_redactValue value]

theorem plain_redactValue : ∀ value,
    Plain (redactValue lower value) ↔ KeptPlainValue lower value
  | .mapping members => by
      rw [redactValue, Plain, KeptPlainValue, plain_redactAttributes members]
  | .list items => by rw [redactValue, Plain, KeptPlainValue, plain_redactItems items]
  | .tuple items => by rw [redactValue, Plain, KeptPlainValue, plain_redactItems items]
  | .text value => by rw [redactValue, Plain, KeptPlainValue]
  | .literal json => by rw [redactValue, Plain, KeptPlainValue]

theorem plain_redactItems : ∀ items,
    PlainItems (redactItems lower items) ↔ KeptPlainItems lower items
  | [] => by simp [redactItems, PlainItems, KeptPlainItems]
  | .mapping members :: rest => by
      rw [redactItems, PlainItems, Plain, KeptPlainItems, plain_redactAttributes members,
        plain_redactItems rest]
  | .list items :: rest => by
      rw [redactItems, PlainItems, Plain, KeptPlainItems, plain_redactItems rest]
  | .tuple items :: rest => by
      rw [redactItems, PlainItems, Plain, KeptPlainItems, plain_redactItems rest]
  | .text value :: rest => by
      rw [redactItems, PlainItems, Plain, KeptPlainItems, plain_redactItems rest]
  | .literal json :: rest => by
      rw [redactItems, PlainItems, Plain, KeptPlainItems, plain_redactItems rest]
      simp

end

end Kept

/-- What the members of a record take at most, each with its colon and comma. -/
def cost (members : List (Text × Attribute)) : Nat :=
  (members.map fun member => utf8Size (quoted member.1) + utf8Size (dumps member.2) + 2).sum

theorem cost_append (first rest : List (Text × Attribute)) :
    cost (first ++ rest) = cost first + cost rest := by
  simp [cost]

theorem utf8Size_dumpsMembers (members : List (Text × Attribute)) :
    utf8Size (dumpsMembers members) ≤ cost members := by
  induction members with
  | nil => simp [dumpsMembers]
  | cons member rest ih =>
      obtain ⟨key, value⟩ := member
      have colon : utf8Size (text ":") = 1 := by decide
      have comma : utf8Size (if rest.isEmpty then [] else text ",") ≤ 1 := by
        split
        · decide
        · decide
      simp only [dumpsMembers, utf8Size_append, colon, cost, List.map_cons, List.sum_cons]
      unfold cost at ih
      omega

theorem plainMembers_append (first rest : List (Text × Attribute)) :
    PlainMembers (first ++ rest) ↔ PlainMembers first ∧ PlainMembers rest := by
  induction first with
  | nil => simp [PlainMembers]
  | cons member others ih =>
      obtain ⟨key, value⟩ := member
      simp only [List.cons_append, PlainMembers, ih, and_assoc]

theorem length_timestamp {now : Datetime} (clock : now.IsClock) :
    (timestamp now).length ≤ 27 := by
  have days := clock.day_lt
  obtain ⟨⟨_, year, _, month, _, _⟩, hour, minute, second, microsecond⟩ := clock
  have width : ∀ {width value : Nat}, 0 < width → value < 10 ^ width →
      (padded width value).length = width := by
    intro width value positive bound
    rw [← String.length_toList, toList_padded positive bound, TextOrder.length_digits]
  have fraction : (if now.microsecond = 0 then "" else "." ++ padded 6 now.microsecond).length ≤
      7 := by
    split
    · decide
    · rw [String.length_append, width (by decide) (by omega)]
      decide
  simp only [timestamp, String.length_append]
  rw [width (by decide) (show now.year < 10 ^ 4 by omega),
    width (by decide) (show now.month < 10 ^ 2 by omega), width (by decide) days,
    width (by decide) (show now.hour < 10 ^ 2 by omega),
    width (by decide) (show now.minute < 10 ^ 2 by omega),
    width (by decide) (show now.second < 10 ^ 2 by omega)]
  have marks : "-".length = 1 ∧ "T".length = 1 ∧ ":".length = 1 ∧ "Z".length = 1 := by decide
  omega

section Records

variable (upper lower : Text → Text) (now : Datetime) (instanceId : Uuid) (call : LogCall)

theorem cost_optional {key : String} {value : Option Text} (short : key.length ≤ 16)
    (bound : ∀ name, value = some name → name.length ≤ 128) :
    cost (optional key value) ≤ 880 := by
  cases value with
  | none => exact Nat.zero_le _
  | some name =>
      cases name with
      | nil => exact Nat.zero_le _
      | cons first rest =>
          have named := bound _ rfl
          have keys := utf8Size_quoted (text key)
          have values := utf8Size_quoted (first :: rest)
          rw [length_text] at keys
          simp only [optional, cost, dumps, List.map_cons, List.map_nil, List.sum_cons,
            List.sum_nil]
          omega

/-- A record without attributes fits. -/
theorem cost_baseRecord (clock : now.IsClock) (level : (upper call.level).length ≤ 128)
    (event : call.eventName.length ≤ 128) (service : call.serviceName.length ≤ 128)
    (trace : ∀ name, call.traceId = some name → name.length ≤ 128)
    (span : ∀ name, call.spanId = some name → name.length ≤ 128) :
    cost (baseRecord upper now instanceId call) ≤ 30000 := by
  have traces := @cost_optional "trace_id" call.traceId (by decide) trace
  have spans := @cost_optional "span_id" call.spanId (by decide) span
  have stamp := utf8Size_quoted (text (timestamp now))
  have levels := utf8Size_quoted (upper call.level)
  have events := utf8Size_quoted call.eventName
  have services := utf8Size_quoted call.serviceName
  have instances := utf8Size_quoted (text instanceId.str)
  have messages := utf8Size_quoted (truncated call.message)
  have written := length_timestamp clock
  have cut : (truncated call.message).length ≤ 4096 := List.length_take_le _ _
  rw [length_text] at stamp instances
  rw [instanceId.length_str] at instances
  have keys : ∀ key ∈ ["schema_version", "timestamp", "level", "event.name", "service.name",
      "service.instance.id", "message"], utf8Size (quoted (text key)) ≤ 21 := by
    decide
  simp only [List.forall_mem_cons, List.not_mem_nil, false_imp_iff, implies_true, and_true]
    at keys
  have version : utf8Size (dumps (.literal "1")) = 1 := by decide
  unfold baseRecord
  rw [cost_append, cost_append]
  simp only [cost, List.map_cons, List.map_nil, List.sum_cons, List.sum_nil, dumps] at *
  omega

theorem text_inj {left right : String} : text left = text right ↔ left = right := by
  constructor
  · intro same
    have chars := List.map_injective_iff.mpr (fun _ _ equal => Character.scalar.inj equal) same
    exact String.toList_inj.mp chars
  · exact congrArg text

theorem plain_optional {key : String} {value : Option Text} :
    PlainMembers (optional key value) ↔ ∀ name, value = some name → Encodable name := by
  cases value with
  | none => simp [optional, PlainMembers]
  | some name =>
      cases name with
      | nil => simp [optional, PlainMembers]
      | cons first rest => simp [optional, PlainMembers, Plain]

/-- The texts of the call, without what is cut off or redacted, can be encoded. -/
structure EncodableCall : Prop where
  level : Encodable (upper call.level)
  eventName : Encodable call.eventName
  serviceName : Encodable call.serviceName
  message : Encodable (truncated call.message)
  traceId : ∀ name, call.traceId = some name → Encodable name
  spanId : ∀ name, call.spanId = some name → Encodable name
  attributes : KeptPlain lower (call.attributes.getD [])

theorem plain_baseRecord :
    PlainMembers (baseRecord upper now instanceId call) ↔
      Encodable (upper call.level) ∧ Encodable call.eventName ∧ Encodable call.serviceName ∧
        Encodable (truncated call.message) ∧
        (∀ name, call.traceId = some name → Encodable name) ∧
        ∀ name, call.spanId = some name → Encodable name := by
  unfold baseRecord
  rw [plainMembers_append, plainMembers_append, plain_optional, plain_optional]
  simp only [PlainMembers, Plain, encodable_text, true_and, and_true, and_assoc]

theorem encodable_fullRecord :
    Encodable (dumps (.mapping (fullRecord upper lower now instanceId call))) ↔
      EncodableCall upper lower call := by
  have redaction := plain_redactAttributes lower (call.attributes.getD [])
  rw [encodable_dumps, Plain]
  have parts : PlainMembers (fullRecord upper lower now instanceId call) ↔
      PlainMembers (baseRecord upper now instanceId call) ∧
        KeptPlain lower (call.attributes.getD []) := by
    unfold fullRecord
    rw [← redaction]
    cases redactAttributes lower (call.attributes.getD []) with
    | nil => simp [PlainMembers]
    | cons first rest =>
        rw [plainMembers_append]
        simp [PlainMembers, Plain]
  rw [parts, plain_baseRecord]
  constructor
  · intro all
    obtain ⟨⟨level, event, service, message, trace, span⟩, attributes⟩ := all
    exact ⟨level, event, service, message, trace, span, attributes⟩
  · intro all
    exact ⟨⟨all.level, all.eventName, all.serviceName, all.message, all.traceId, all.spanId⟩,
      all.attributes⟩

/-- Whatever attributes follow, the message of a record is the one of the call. -/
theorem message_of_member {message : Text} {record : List (Text × Attribute)} {value : Attribute}
    (written : record = baseRecord upper now instanceId call ∨
      record = baseRecord upper now instanceId call ++ [(text "attributes", value)]) :
    (text "message", .text message) ∈ record ↔ message = truncated call.message := by
  have ids : ∀ (key : String) value, key ≠ "message" →
      (text "message", Attribute.text message) ∉ optional key value := by
    intro key value apart
    cases value with
    | none => simp [optional]
    | some name =>
        cases name with
        | nil => simp [optional]
        | cons first rest => simp [optional, text_inj, apart.symm]
  have base : (text "message", .text message) ∈ baseRecord upper now instanceId call ↔
      message = truncated call.message := by
    unfold baseRecord
    rw [List.mem_append, List.mem_append]
    simp only [ids "trace_id" call.traceId (by decide), ids "span_id" call.spanId (by decide),
      or_false]
    simp [text_inj]
  rcases written with rfl | rfl
  · exact base
  · rw [List.mem_append, base]
    simp [text_inj]

/-- The line keeps its bounds. -/
def Bounded : Prop :=
  ∃ record message, loggedRecord upper lower now instanceId call = .ok record ∧
    (text "message", .text message) ∈ record ∧
    Encodable message ∧ utf8Size message ≤ maxMessageBytes ∧
    formatCyreneLog upper lower now instanceId call = .ok (dumps (.mapping record)) ∧
    Encodable (dumps (.mapping record)) ∧
    utf8Size (dumps (.mapping record)) ≤ maxRecordBytes

/-- The record that is logged is the full one, unless that is too large. -/
theorem loggedRecord_ok {record : List (Text × Attribute)}
    (logged : loggedRecord upper lower now instanceId call = .ok record) :
    EncodableCall upper lower call ∧
      (record = fullRecord upper lower now instanceId call ∧
          utf8Size (dumps (.mapping record)) ≤ maxRecordBytes ∨
        record = boundedRecord upper now instanceId call) := by
  unfold loggedRecord at logged
  simp only at logged
  split at logged
  · rename_i encodable
    have calls := (encodable_fullRecord upper lower now instanceId call).mp encodable
    split at logged
    · cases logged
      exact ⟨calls, .inr rfl⟩
    · rename_i small
      cases logged
      exact ⟨calls, .inl ⟨rfl, by omega⟩⟩
  · cases logged

theorem loggedRecord_message {record : List (Text × Attribute)} {message : Text}
    (logged : loggedRecord upper lower now instanceId call = .ok record) :
    (text "message", .text message) ∈ record ↔ message = truncated call.message := by
  have cases := (loggedRecord_ok upper lower now instanceId call logged).2
  have full : fullRecord upper lower now instanceId call = baseRecord upper now instanceId call ∨
      ∃ value, fullRecord upper lower now instanceId call =
        baseRecord upper now instanceId call ++ [(text "attributes", value)] := by
    unfold fullRecord
    cases redactAttributes lower (call.attributes.getD []) with
    | nil => exact .inl rfl
    | cons first rest => exact .inr ⟨_, rfl⟩
  rcases cases with ⟨rfl, _⟩ | rfl
  · rcases full with same | ⟨value, same⟩
    · exact @message_of_member upper now instanceId call message _ (.literal "") (.inl same)
    · exact message_of_member upper now instanceId call (.inr same)
  · exact message_of_member upper now instanceId call (.inr rfl)

theorem encodable_boundedRecord (encodable : EncodableCall upper lower call) :
    Encodable (dumps (.mapping (boundedRecord upper now instanceId call))) := by
  have base := (plain_baseRecord upper now instanceId call).mpr ⟨encodable.level,
    encodable.eventName, encodable.serviceName, encodable.message, encodable.traceId,
    encodable.spanId⟩
  rw [encodable_dumps, Plain, boundedRecord, plainMembers_append]
  refine ⟨base, ?_⟩
  simp [PlainMembers, Plain]

theorem utf8Size_boundedRecord (base : cost (baseRecord upper now instanceId call) ≤ 30000) :
    utf8Size (dumps (.mapping (boundedRecord upper now instanceId call))) ≤ maxRecordBytes := by
  have members := utf8Size_dumpsMembers (boundedRecord upper now instanceId call)
  have rest : cost [(text "attributes",
      .mapping [(text "truncated", .literal "true")])] ≤ 40 := by
    decide
  have braces : utf8Size (text "\x7b") = 1 ∧ utf8Size (text "\x7d") = 1 := by decide
  unfold boundedRecord at members ⊢
  rw [cost_append] at members
  simp only [dumps, utf8Size_append, braces] at members ⊢
  unfold maxRecordBytes
  omega

/-- A line keeps its bounds exactly if everything in it can be encoded and the first 4096
characters of the message take at most 4096 bytes. -/
theorem log_line_is_bounded_iff (clock : now.IsClock) (level : (upper call.level).length ≤ 128)
    (event : call.eventName.length ≤ 128) (service : call.serviceName.length ≤ 128)
    (trace : ∀ name, call.traceId = some name → name.length ≤ 128)
    (span : ∀ name, call.spanId = some name → name.length ≤ 128) :
    Bounded upper lower now instanceId call ↔
      EncodableCall upper lower call ∧ utf8Size (truncated call.message) ≤ maxMessageBytes := by
  constructor
  · intro bounded
    obtain ⟨record, message, logged, member, _, small, _⟩ := bounded
    obtain rfl := (loggedRecord_message upper lower now instanceId call logged).mp member
    exact ⟨(loggedRecord_ok upper lower now instanceId call logged).1, small⟩
  · intro fits
    obtain ⟨encodable, small⟩ := fits
    have serialized := (encodable_fullRecord upper lower now instanceId call).mpr encodable
    by_cases large : maxRecordBytes <
        utf8Size (dumps (.mapping (fullRecord upper lower now instanceId call)))
    · have logged : loggedRecord upper lower now instanceId call =
          .ok (boundedRecord upper now instanceId call) := by
        simp [loggedRecord, serialized, large]
      have base := cost_baseRecord upper now instanceId call clock level event service trace span
      exact ⟨_, _, logged, (loggedRecord_message _ _ _ _ _ logged).mpr rfl, encodable.message,
        small, by rw [formatCyreneLog, logged]; rfl,
        encodable_boundedRecord upper lower now instanceId call encodable,
        utf8Size_boundedRecord upper now instanceId call base⟩
    · have logged : loggedRecord upper lower now instanceId call =
          .ok (fullRecord upper lower now instanceId call) := by
        simp [loggedRecord, serialized, large]
      exact ⟨_, _, logged, (loggedRecord_message _ _ _ _ _ logged).mpr rfl, encodable.message,
        small, by rw [formatCyreneLog, logged]; rfl, serialized, by omega⟩

end Records

/-- A call without attributes. -/
def errorCall (message : Text) : LogCall :=
  ⟨text "ERROR", text "event", message, text "cyrene-reactor", none, none, none⟩

/-- A message that is cut off, and attributes that are left out: a redacted one that could not be
encoded, and a dump as long as a record may be. -/
def tracedCall : LogCall where
  level := text "ERROR"
  eventName := text "event"
  message := List.replicate 10000 (.scalar 'a')
  serviceName := text "cyrene-reactor"
  traceId := some (text "trace-1")
  spanId := some (text "span-1")
  attributes := some
    [(text "request", .mapping
        [(text "password", .text [.surrogate 0]), (text "path", .text (text "/v1/deployments"))]),
      (text "dump", .text (List.replicate maxRecordBytes (.scalar 'x')))]

theorem encodable_tracedCall : EncodableCall id id tracedCall where
  level := encodable_text _
  eventName := encodable_text _
  serviceName := encodable_text _
  message := by
    rw [truncated, tracedCall, List.take_replicate]
    exact encodable_replicate _ 'a'
  traceId := by
    rintro _ ⟨⟩
    exact encodable_text _
  spanId := by
    rintro _ ⟨⟩
    exact encodable_text _
  attributes := by
    have password : isSensitiveKey id (text "password") = true := by decide
    have path : isSensitiveKey id (text "path") = false := by decide
    have request : isSensitiveKey id (text "request") = false := by decide
    have dump : isSensitiveKey id (text "dump") = false := by decide
    simp only [tracedCall, Option.getD_some, KeptPlain, KeptPlainValue, password, path, request,
      dump, encodable_text, encodable_replicate, if_true, Bool.false_eq_true, if_false, and_self]

theorem log_line_is_bounded_ascii :
    Bounded id id ⟨2000, 1, 1, 0, 0, 0, 0⟩ ⟨0⟩ tracedCall := by
  have short : utf8Size (truncated tracedCall.message) ≤ maxMessageBytes := by
    rw [truncated, tracedCall, List.take_replicate, utf8Size_replicate]
    decide
  refine (log_line_is_bounded_iff id id ⟨2000, 1, 1, 0, 0, 0, 0⟩ ⟨0⟩ tracedCall (by decide)
    (by decide) (by decide) (by decide) ?_ ?_).mpr ⟨encodable_tracedCall, short⟩
  · rintro _ ⟨⟩
    decide
  · rintro _ ⟨⟩
    decide

/-- Two thousand Chinese characters take 6000 bytes. -/
theorem log_message_exceeds_bound :
    ¬ Bounded id id ⟨2000, 1, 1, 0, 0, 0, 0⟩ ⟨0⟩ (errorCall (List.replicate 2000 (.scalar '模'))) := by
  intro bounded
  obtain ⟨record, message, logged, member, _, small, _⟩ := bounded
  obtain rfl := (loggedRecord_message _ _ _ _ _ logged).mp member
  have whole : truncated (List.replicate 2000 (.scalar '模')) =
      List.replicate 2000 (.scalar '模') := by
    unfold truncated maxMessageBytes
    rw [List.take_replicate]
    rfl
  have three : Character.utf8Size (.scalar '模') = 3 := by decide
  simp only [errorCall, whole, utf8Size_replicate, three, maxMessageBytes] at small
  omega

end CyreneReactor.Logging
