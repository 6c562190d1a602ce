import CyreneReactor.Diagnostics.Persisted

namespace CyreneReactor.Diagnostics

open Like

/-! Whether the flag of lost output is about the records that say so. -/

/-- `record["code"] == "REACTOR.DIAGNOSTICS.DEGRADED"` -/
def hasDegradedCode (document : Members) : Bool :=
  match JsonValue.member? document "code" with
  | some (.str code) => code == "REACTOR.DIAGNOSTICS.DEGRADED"
  | _ => false

/-- A key or text of the document, at any depth, reads like the code. -/
def quotesCode (document : Members) : Bool := (textsOfMembers document).any quotesDegraded

section Documents

variable {document : Members} {value : JsonValue} {key text : String}

theorem mem_textsOfMembers (member : (key, value) ∈ document) (inside : text ∈ texts value) :
    text ∈ textsOfMembers document := by
  induction document with
  | nil => cases member
  | cons first rest ih =>
      obtain ⟨name, other⟩ := first
      simp only [textsOfMembers, List.mem_cons, List.mem_append]
      rcases List.mem_cons.mp member with same | later
      · cases same
        exact .inr (.inl inside)
      · exact .inr (.inr (ih later))

theorem quotesCode_of_code (code : hasDegradedCode document = true) :
    quotesCode document = true := by
  unfold hasDegradedCode at code
  split at code
  · rename_i text found
    obtain rfl := beq_iff_eq.mp code
    obtain ⟨member, first, known⟩ := Option.map_eq_some_iff.mp found
    obtain ⟨name, value⟩ := member
    cases known
    have inside := mem_textsOfMembers (List.mem_of_find?_eq_some first) List.mem_cons_self
    exact List.any_eq_true.mpr ⟨_, inside, by decide⟩
  · cases code

end Documents

/-- The store's flag is raised by every document that quotes the code. -/
theorem degraded_iff (printer : JsonPrinter) (database : Database) (id : Uuid) :
    printer.deploymentDiagnosticsDegraded database id = true ↔
      ∃ document ∈ documentsOf database id, quotesCode document = true := by
  rw [printer.degraded_eq, List.any_eq_true]
  simp only [mentionsDegraded_iff, quotesCode, List.any_eq_true]

/-- The flag says that a record of the deployment has the code, if and only if one has
it or none quotes it. -/
theorem degraded_flag_iff (printer : JsonPrinter) (database : Database) (id : Uuid) :
    (printer.deploymentDiagnosticsDegraded database id = true ↔
        ∃ document ∈ documentsOf database id, hasDegradedCode document = true) ↔
      (∃ document ∈ documentsOf database id, hasDegradedCode document = true) ∨
        ∀ document ∈ documentsOf database id, quotesCode document = false := by
  rw [degraded_iff]
  constructor
  · intro agrees
    by_cases coded : ∃ document ∈ documentsOf database id, hasDegradedCode document = true
    · exact .inl coded
    · refine .inr fun document member => Bool.eq_false_iff.mpr fun quotes => coded ?_
      exact agrees.mp ⟨document, member, quotes⟩
  · intro unambiguous
    constructor
    · intro quoted
      rcases unambiguous with coded | silent
      · exact coded
      · obtain ⟨document, member, quotes⟩ := quoted
        rw [silent document member] at quotes
        cases quotes
    · intro coded
      obtain ⟨document, member, code⟩ := coded
      exact ⟨document, member, quotesCode_of_code code⟩

/-- A line of the runtime that quotes the code. -/
def quotingLine : Members :=
  [("code", .null), ("message", .str "no REACTOR.DIAGNOSTICS.DEGRADED record so far")]

def quotingDatabase : Database := Database.empty.appendDeploymentDiagnostics ⟨0⟩ [quotingLine]

def plainPrinter : JsonPrinter where
  isprintable := Char.isAlphanum
  floatRepr := fun _ => "0.0"
  encodes_ascii := fun _ _ => rfl
  floatRepr_head := zero_head
  floatRepr_chars := fun _ => List.all_iff_forall_prop.mp (by decide)

theorem quoted_code_raises_flag :
    plainPrinter.deploymentDiagnosticsDegraded quotingDatabase ⟨0⟩ = true ∧
      ∀ document ∈ documentsOf quotingDatabase ⟨0⟩, hasDegradedCode document = false := by
  have persisted : documentsOf quotingDatabase ⟨0⟩ =
      [Database.stampSequence quotingLine 1] := rfl
  rw [degraded_iff, persisted]
  exact ⟨⟨_, List.mem_singleton_self _, by decide⟩, by decide⟩

end CyreneReactor.Diagnostics
