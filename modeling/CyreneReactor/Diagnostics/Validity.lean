import CyreneReactor.Diagnostics.Record
import CyreneReactor.Store

namespace CyreneReactor.Diagnostics

/-! Which documents are diagnostic records.

A document is validated field by field, so it is a record exactly if each field is
readable; for the documents of the service this comes down to the members that the
host of the runtime controls, and to the length of the service's own messages.
-/

theorem isSome_bind_iff {α β : Type} {first : Option α} {next : α → Option β} {rest : Prop}
    (each : ∀ value, (next value).isSome = true ↔ rest) :
    (first >>= next).isSome = true ↔ first.isSome = true ∧ rest := by
  cases first with
  | none => simp
  | some value => simpa using each value

theorem isSome_guard {condition : Prop} [Decidable condition] :
    (guard condition : Option Unit).isSome = true ↔ condition := by
  by_cases holds : condition
  · simp [guard, holds]
  · simp only [guard, holds, if_false, iff_false]
    exact Bool.false_ne_true

theorem modelValidate_isSome (printer : Printer) (document : Members) :
    (DiagnosticRecord.modelValidate printer document).isSome = true ↔
      (document.all fun member =>
        fieldNames.any fun field => field.1 == member.1 || field.2 == member.1) = true ∧
      ((field? document "sequence").bind positive?).isSome = true ∧
      ((field? document "timestamp").bind (text? printer)).isSome = true ∧
      (defaulted (field? document "level")
        (literal? DiagnosticLevel.all DiagnosticLevel.value) .info).isSome = true ∧
      (defaulted (field? document "source")
        (literal? DiagnosticSource.all DiagnosticSource.value) .product).isSome = true ∧
      (defaulted (field? document "stream")
        (literal? DiagnosticStream.all DiagnosticStream.value) .combined).isSome = true ∧
      (defaulted (field? document "code") (optionalText? printer 200) none).isSome = true ∧
      (defaulted (field? document "message") (boundedText? printer 8192)
        ⟨"", by decide⟩).isSome = true ∧
      (defaulted (field? document "requestId") (optionalText? printer 200) none).isSome = true ∧
      (defaulted (field? document "operationId") (optionalText? printer 200) none).isSome = true ∧
      (defaulted (field? document "resourceId") (optionalText? printer 200) none).isSome = true ∧
      (defaulted (field? document "attemptId") (optionalText? printer 200) none).isSome = true ∧
      (defaulted (field? document "truncated") bool? false).isSome = true := by
  unfold DiagnosticRecord.modelValidate
  rw [isSome_bind_iff, isSome_guard]
  intro known
  refine isSome_bind_iff fun sequence => isSome_bind_iff fun timestamp =>
    isSome_bind_iff fun level => isSome_bind_iff fun source => isSome_bind_iff fun stream =>
    isSome_bind_iff fun code => isSome_bind_iff fun message => isSome_bind_iff fun requestId =>
    isSome_bind_iff fun operationId => isSome_bind_iff fun resourceId =>
    isSome_bind_iff fun attemptId => ?_
  cases defaulted (field? document "truncated") bool? false <;> simp

theorem defaulted_isSome {α : Type} {field : Option JsonValue} {value : JsonValue}
    {read : JsonValue → Option α} {default : α} (found : field = some value) :
    (defaulted field read default).isSome = true ↔ (read value).isSome = true := by
  rw [found]
  rfl

theorem literal?_isSome {α : Type} {all : List α} {value : α → String} {text : String} :
    (literal? all value (.str text)).isSome = true ↔ text ∈ all.map value := by
  simp [literal?]

/-- A text that a field of this length takes. -/
def Storable (printer : Printer) (limit : Nat) (text : String) : Prop :=
  text.length ≤ limit ∧ printer.encodes text = true

theorem text?_isSome {printer : Printer} {text : String} :
    (text? printer (.str text)).isSome = true ↔ printer.encodes text = true := by
  simp only [text?]
  split <;> simp [*]

theorem boundedText?_isSome {printer : Printer} {limit : Nat} {text : String} :
    (boundedText? printer limit (.str text)).isSome = true ↔ Storable printer limit text := by
  simp only [boundedText?, text?, Storable]
  split
  · simp only [Option.bind_eq_bind, Option.bind_some]
    split <;> simp [*]
  · simp [*]

theorem optionalText?_isSome {printer : Printer} {limit : Nat} {given : JsonValue} :
    (optionalText? printer limit given).isSome = true ↔
      given = .null ∨ ∃ text : String, given = .str text ∧ Storable printer limit text := by
  cases given with
  | str text => simp [optionalText?, boundedText?_isSome]
  | null | bool | int | float | arr | obj => simp [optionalText?, boundedText?, text?]

theorem positive?_isSome (sequence : Nat) :
    (positive? (.int (sequence + 1 : Nat))).isSome = true := by
  simp only [positive?]
  split
  · rfl
  · omega

theorem length_str (id : Uuid) : id.str.length ≤ 200 := by
  simp only [Uuid.str, ← String.length_toList, String.toList_append, String.toList_ofList,
    List.length_append, List.length_take, List.length_drop]
  have dash : "-".toList.length = 1 := rfl
  omega

theorem named_isSome (printer : Printer) (id : Uuid) :
    (optionalText? printer 200 (.str id.str)).isSome = true :=
  optionalText?_isSome.mpr
    (.inr ⟨id.str, rfl, length_str id, printer.encodes_ascii _ (isAscii_str id)⟩)

theorem dated_isSome (printer : Printer) (time : Datetime) :
    (text? printer (.str time.isoformat)).isSome = true :=
  text?_isSome.mpr (printer.encodes_ascii _ (isAscii_isoformat time))

theorem length_take (text : String) (limit : Nat) :
    (String.ofList (text.toList.take limit)).length ≤ limit := by
  rw [← String.length_toList, String.toList_ofList]
  exact List.length_take_le limit text.toList

/-- The member is absent, or one of the words. -/
def MemberIn (record : Members) (key : String) (words : List String) : Prop :=
  ∀ value, JsonValue.member? record key = some value → ∃ word ∈ words, value = .str word

/-- The member is absent, null, or a text of at most 200 characters. -/
def MemberShort (printer : Printer) (record : Members) (key : String) : Prop :=
  ∀ value, JsonValue.member? record key = some value →
    value = .null ∨ ∃ text : String, value = .str text ∧ Storable printer 200 text

/-- What a host must write for its record to be one. -/
structure RuntimeAdmissible (printer : Printer) (record : Members) : Prop where
  timestamp : printer.encodes (textOf printer record "timestamp" "") = true
  level : MemberIn record "level" (DiagnosticLevel.all.map DiagnosticLevel.value)
  stream : MemberIn record "stream" (DiagnosticStream.all.map DiagnosticStream.value)
  code : MemberShort printer record "code"
  message : printer.encodes
    (String.ofList ((textOf printer record "message" "").toList.take 8192)) = true
  requestId : MemberShort printer record "requestId"
  operationId : MemberShort printer record "operationId"

section Members

variable {printer : Printer} {record : Members} {key : String}

/-- `str` makes no word of a member that is none. -/
theorem textOf_mem {default : String} {words : List String} (defaults : default ∈ words)
    (lower : (words.all fun word => word.toList.head?.all Char.isLower) = true) :
    textOf printer record key default ∈ words ↔ MemberIn record key words := by
  unfold textOf MemberIn
  cases JsonValue.member? record key with
  | none => simpa [Printer.str] using defaults
  | some value =>
      simp only [Option.getD_some, Option.some.injEq, forall_eq']
      constructor
      · intro member
        by_cases texts : ∃ text, value = .str text
        · obtain ⟨text, rfl⟩ := texts
          exact ⟨text, member, rfl⟩
        · obtain ⟨head, first, upper⟩ := printer.str_head (not_exists.mp texts)
          have lowered := List.all_eq_true.mp lower _ member
          rw [first] at lowered
          exact absurd (lowered.symm.trans upper) (by decide)
      · rintro ⟨word, member, rfl⟩
        exact member

theorem memberOf_isSome :
    (optionalText? printer 200 (memberOf record key)).isSome = true ↔
      MemberShort printer record key := by
  unfold memberOf MemberShort
  rw [optionalText?_isSome]
  cases JsonValue.member? record key with
  | none => simp
  | some value => simp

end Members

open Database (stampSequence)

/-- A harvested document is a record exactly if the host wrote an admissible one. -/
theorem runtimeDocument_valid (printer : Printer) (deploymentId : Uuid) (record : Members)
    (sequence : Nat) :
    (DiagnosticRecord.modelValidate printer (stampSequence
      (runtimeDocument printer deploymentId record) (sequence + 1))).isSome = true ↔
    RuntimeAdmissible printer record := by
  have levels := @textOf_mem printer record "level" "info"
    (DiagnosticLevel.all.map DiagnosticLevel.value) (by decide) (by decide)
  have streams := @textOf_mem printer record "stream" "combined"
    (DiagnosticStream.all.map DiagnosticStream.value) (by decide) (by decide)
  rw [modelValidate_isSome]
  constructor
  · rintro ⟨_, _, timestamp, level, _, stream, code, message, requestId, operationId, _⟩
    exact ⟨text?_isSome.mp timestamp,
      levels.mp (literal?_isSome.mp ((defaulted_isSome rfl).mp level)),
      streams.mp (literal?_isSome.mp ((defaulted_isSome rfl).mp stream)),
      memberOf_isSome.mp ((defaulted_isSome rfl).mp code),
      (boundedText?_isSome.mp ((defaulted_isSome rfl).mp message)).2,
      memberOf_isSome.mp ((defaulted_isSome rfl).mp requestId),
      memberOf_isSome.mp ((defaulted_isSome rfl).mp operationId)⟩
  · intro admissible
    have message := boundedText?_isSome.mpr
      ⟨length_take (textOf printer record "message" "") 8192, admissible.message⟩
    exact ⟨rfl, positive?_isSome sequence, text?_isSome.mpr admissible.timestamp,
      (defaulted_isSome rfl).mpr (literal?_isSome.mpr (levels.mpr admissible.level)), rfl,
      (defaulted_isSome rfl).mpr (literal?_isSome.mpr (streams.mpr admissible.stream)),
      (defaulted_isSome rfl).mpr (memberOf_isSome.mpr admissible.code),
      (defaulted_isSome rfl).mpr message,
      (defaulted_isSome rfl).mpr (memberOf_isSome.mpr admissible.requestId),
      (defaulted_isSome rfl).mpr (memberOf_isSome.mpr admissible.operationId),
      (defaulted_isSome rfl).mpr (named_isSome printer deploymentId), rfl, rfl⟩

/-- The document of lost output is always a record. -/
theorem degradedDocument_valid (printer : Printer) (deploymentId : Uuid) (now : Datetime)
    (sequence : Nat) :
    (DiagnosticRecord.modelValidate printer (stampSequence (degradedDocument deploymentId now)
      (sequence + 1))).isSome = true := by
  have storable : ∀ text limit, text.length ≤ limit → IsAscii text → Storable printer limit text :=
    fun text limit short ascii => ⟨short, printer.encodes_ascii text ascii⟩
  have code := storable "REACTOR.DIAGNOSTICS.DEGRADED" 200 (by decide) (by decide)
  have message := storable "The serving runtime could not keep all of its output." 8192
    (by decide) (by decide)
  rw [modelValidate_isSome]
  exact ⟨rfl, positive?_isSome sequence, dated_isSome printer now, rfl, rfl, rfl,
    (defaulted_isSome rfl).mpr (optionalText?_isSome.mpr (.inr ⟨_, rfl, code⟩)),
    (defaulted_isSome rfl).mpr (boundedText?_isSome.mpr message), rfl, rfl,
    (defaulted_isSome rfl).mpr (named_isSome printer deploymentId), rfl, rfl⟩

/-- What the service must write for its own document to be a record. -/
structure ProductAdmissible (printer : Printer) (message level : String)
    (code : Option String) : Prop where
  level : level ∈ DiagnosticLevel.all.map DiagnosticLevel.value
  code : ∀ text ∈ code, Storable printer 200 text
  message : Storable printer 8192 message

theorem productDocument_valid (printer : Printer) (deploymentId : Uuid) (now : Datetime)
    (message level : String) (code : Option String) (sequence : Nat) :
    (DiagnosticRecord.modelValidate printer (stampSequence
      (productDocument deploymentId now message level code) (sequence + 1))).isSome = true ↔
    ProductAdmissible printer message level code := by
  have codes : (optionalText? printer 200 ((code.map JsonValue.str).getD .null)).isSome = true ↔
      ∀ text ∈ code, Storable printer 200 text := by
    rw [optionalText?_isSome]
    cases code <;> simp
  rw [modelValidate_isSome]
  constructor
  · rintro ⟨_, _, _, level, _, _, code, message, _⟩
    exact ⟨literal?_isSome.mp ((defaulted_isSome rfl).mp level),
      codes.mp ((defaulted_isSome rfl).mp code),
      boundedText?_isSome.mp ((defaulted_isSome rfl).mp message)⟩
  · intro admissible
    exact ⟨rfl, positive?_isSome sequence, dated_isSome printer now,
      (defaulted_isSome rfl).mpr (literal?_isSome.mpr admissible.level), rfl, rfl,
      (defaulted_isSome rfl).mpr (codes.mpr admissible.code),
      (defaulted_isSome rfl).mpr (boundedText?_isSome.mpr admissible.message), rfl, rfl,
      (defaulted_isSome rfl).mpr (named_isSome printer deploymentId), rfl, rfl⟩

end CyreneReactor.Diagnostics
