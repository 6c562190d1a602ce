import CyreneReactor.Diagnostics.Recorded
import CyreneReactor.Diagnostics.Script
import CyreneReactor.Diagnostics.Validity

namespace CyreneReactor.Diagnostics

open Interaction DiagnosticsService

/-! Stored diagnostics that are no records.

The documents are written as they come and validated only when they are read, so a
request fails exactly when what was appended before it was not admissible.
-/

/-- What was appended is admissible: a line the service recorded itself is short
enough, and every record of a page that was persisted is what the host must write. -/
def AppendsAdmissible (printer : Printer) (journal : List Event) : Prop :=
  ∀ caller id documents answer,
    ⟨caller, .appendDeploymentDiagnostics id documents, answer⟩ ∈ journal →
    match caller.command with
    | .record _ message level code => ProductAdmissible printer message level code
    | .diagnostics _ _ _ => ∀ cursor page, Fetched (own caller journal) cursor page →
        ∀ record ∈ pageRecords page, RuntimeAdmissible printer record

/-- A stored document that can be read back. -/
def Readable (printer : Printer) (document : Members) : Prop :=
  (DiagnosticRecord.modelValidate printer document).isSome = true

/-- Stored documents never make a request fail. -/
structure Unpoisoned (service : DiagnosticsService) {environment : Environment}
    (pool : Pool (service.system environment)) : Prop where
  records : ∀ id, ∀ document ∈ documentsOf (State.database pool.state) id,
    Readable service.printer document
  pages : ∀ id afterSequence limit, 0 ≤ afterSequence →
    (validateAll service.printer (listDeploymentDiagnostics (State.database pool.state) id
      afterSequence limit)).isOk = true
  answers : ∀ index command depth failure,
    pool.threads[index]? = some ⟨command, depth, .pure (.error failure)⟩ →
    failure ≠ .validationError ∧
      Excuse service ⟨index, command⟩ (own ⟨index, command⟩ (State.journal pool.state)) failure

section Documents

variable {service : DiagnosticsService} {state : State} {id : Uuid}

/-- A stored document is an appended one with its sequence. -/
theorem Recorded.mem_documentsOf (recorded : Recorded service state) {document : Members} :
    document ∈ documentsOf state.database id ↔
      ∃ sequence written, (appended id state.journal)[sequence]? = some written ∧
        document = Database.stampSequence written (sequence + 1) := by
  unfold documentsOf
  rw [recorded.rows]
  constructor
  · intro member
    obtain ⟨row, found, rfl⟩ := List.mem_map.mp member
    obtain ⟨index, bound, rfl⟩ := List.mem_iff_getElem.mp found
    rw [List.length_mapIdx] at bound
    refine ⟨index, _, List.getElem?_eq_getElem bound, ?_⟩
    simp [rowAfter]
  · rintro ⟨sequence, written, found, rfl⟩
    obtain ⟨bound, rfl⟩ := List.getElem?_eq_some_iff.mp found
    refine List.mem_map.mpr ⟨rowAfter id 0 sequence _, List.mem_iff_getElem.mpr
      ⟨sequence, by simpa using bound, List.getElem_mapIdx⟩, ?_⟩
    simp [rowAfter]

/-- What an event appended is stored. -/
theorem Recorded.stored (recorded : Recorded service state) {event : Event} {written : Members}
    (member : event ∈ state.journal) (wrote : written ∈ event.documents id) :
    ∃ sequence, Database.stampSequence written (sequence + 1) ∈ documentsOf state.database id := by
  have present : written ∈ appended id state.journal :=
    List.mem_flatMap.mpr ⟨event, member, wrote⟩
  obtain ⟨sequence, found⟩ := List.getElem?_of_mem present
  exact ⟨sequence, recorded.mem_documentsOf.mpr ⟨sequence, written, found, rfl⟩⟩

/-- The documents of a page can be read back exactly if its records are admissible. -/
theorem pageDocuments_readable {page : Members} {documents : List Members}
    (shape : PageDocuments service id page documents) :
    (∀ document ∈ documents, ∀ sequence,
      Readable service.printer (Database.stampSequence document (sequence + 1))) ↔
      ∀ record ∈ pageRecords page, RuntimeAdmissible service.printer record := by
  have harvested : ∀ record ∈ pageRecords page, runtimeDocument service.printer id record ∈
      documents := by
    intro record member
    have written : runtimeDocument service.printer id record ∈ service.runtimeDocuments id page :=
      List.mem_map_of_mem member
    rcases shape with same | ⟨_, same⟩
    · exact same ▸ written
    · exact same ▸ List.mem_append_left _ written
  constructor
  · intro readable record member
    exact (runtimeDocument_valid service.printer id record 0).mp
      (readable _ (harvested record member) 0)
  · intro admissible document member sequence
    have cases : document ∈ service.runtimeDocuments id page ∨
        ∃ now, document = degradedDocument id now := by
      rcases shape with rfl | ⟨now, rfl⟩
      · exact .inl member
      · exact (List.mem_append.mp member).imp_right fun last => ⟨now, List.mem_singleton.mp last⟩
    rcases cases with written | ⟨now, rfl⟩
    · obtain ⟨record, present, rfl⟩ := List.mem_map.mp written
      exact (runtimeDocument_valid service.printer id record sequence).mpr
        (admissible record present)
    · exact degradedDocument_valid service.printer id now sequence

/-- Everything stored can be read back exactly if what was appended is admissible. -/
theorem Recorded.readable_iff (recorded : Recorded service state) :
    (∀ id, ∀ document ∈ documentsOf state.database id, Readable service.printer document) ↔
      AppendsAdmissible service.printer state.journal := by
  constructor
  · intro readable caller id documents answer member
    obtain ⟨_, source⟩ := recorded.sourced caller id documents answer member
    have stored : ∀ written ∈ documents, ∃ sequence,
        Readable service.printer (Database.stampSequence written (sequence + 1)) := by
      intro written wrote
      have present : written ∈ Event.documents id
          ⟨caller, .appendDeploymentDiagnostics id documents, answer⟩ := by
        simpa [Event.documents] using wrote
      obtain ⟨sequence, found⟩ := recorded.stored member present
      exact ⟨sequence, readable id _ found⟩
    unfold Source at source
    cases command : caller.command with
    | record target message level code =>
        rw [command] at source
        obtain ⟨now, rfl⟩ := source
        obtain ⟨sequence, valid⟩ := stored _ (List.mem_singleton.mpr rfl)
        exact (productDocument_valid service.printer target now message level code
          sequence).mp valid
    | diagnostics target afterSequence limit =>
        rw [command] at source
        obtain ⟨cursor, page, fetched, shape⟩ := source
        intro otherCursor otherPage again record present
        obtain ⟨_, rfl⟩ := recorded.fetchedOnce caller _ _ _ _ fetched again
        have written : runtimeDocument service.printer target record ∈ documents := by
          have mapped := @List.mem_map_of_mem _ _ _ _ (runtimeDocument service.printer target)
            present
          rcases shape with rfl | ⟨_, rfl⟩
          · exact mapped
          · exact List.mem_append_left _ mapped
        obtain ⟨sequence, valid⟩ := stored _ written
        exact (runtimeDocument_valid service.printer target record sequence).mp valid
  · intro admissible id document member
    obtain ⟨sequence, written, found, rfl⟩ := recorded.mem_documentsOf.mp member
    obtain ⟨event, happened, wrote⟩ := List.mem_flatMap.mp (List.mem_of_getElem? found)
    obtain ⟨caller, op, answer⟩ := event
    cases op with
    | appendDeploymentDiagnostics target documents =>
        have wrote : written ∈ documents := by
          by_cases same : target = id
          · simpa [Event.documents, same] using wrote
          · simp [Event.documents, same] at wrote
        obtain ⟨_, source⟩ := recorded.sourced caller target documents answer happened
        have condition := admissible caller target documents answer happened
        unfold Source at source
        cases command : caller.command with
        | record owner message level code =>
            rw [command] at source condition
            obtain ⟨now, rfl⟩ := source
            rw [List.mem_singleton.mp wrote]
            exact (productDocument_valid service.printer owner now message level code
              sequence).mpr condition
        | diagnostics owner afterSequence limit =>
            rw [command] at source condition
            obtain ⟨cursor, page, fetched, shape⟩ := source
            exact (pageDocuments_readable shape).mpr (condition cursor page fetched) written wrote
              sequence
    | utcNow | getDeployment | getExecutionRef | runtimeDiagnosticsCursor | request
    | setRuntimeDiagnosticsCursor | listDeploymentDiagnostics | deploymentDiagnosticsDegraded =>
        simp [Event.documents] at wrote

theorem validateAll_ok {printer : Printer} {documents : List Members}
    (readable : ∀ document ∈ documents, Readable printer document) :
    (validateAll printer documents).isOk = true := by
  cases validated : validateAll printer documents with
  | ok records => rfl
  | error failure =>
      obtain ⟨_, document, member, invalid⟩ := validateAll_error validated
      have valid := readable document member
      rw [Readable, invalid] at valid
      cases valid

end Documents

section Runs

variable {service : DiagnosticsService} {environment : Environment}
  {logs : Uuid → List Members} {pool : Pool (service.system environment)}

/-- A request that is over failed for one of the reasons, if it failed. -/
theorem excused (reached : Reachable (State.opened logs) pool) {index depth : Nat}
    {command : Command} {failure : Failure}
    (found : pool.threads[index]? = some ⟨command, depth, .pure (.error failure)⟩) :
    Excuse service ⟨index, command⟩ (own ⟨index, command⟩ (State.journal pool.state)) failure := by
  obtain ⟨since, relied, _, finished⟩ := (sound reached).verified found
  have finished : Finished service ⟨index, command⟩ (.error failure) since := finished
  have kept : own ⟨index, command⟩ (State.journal pool.state) =
      own ⟨index, command⟩ (State.journal since) := (Steady.stable _).rely relied rfl
  rw [kept]
  exact finished failure rfl

end Runs

namespace Sample

/-- A runtime that logs at a level of its own. -/
abbrev leveling : Binding := repeating [line "fatal" "boom"]

/-- A request for a page of it. -/
def leveled : Pool (diagnostics.system (leveling.world diagnostics always)) :=
  leveling.play diagnostics always (fun _ => []) [.start (Binding.ask ⟨0⟩), .run 0 20]

end Sample

example : (Sample.leveled.threads.map fun thread =>
    match thread.program with
    | .pure (.error .validationError) => true
    | _ => false) = [true] := by
  decide +kernel

end CyreneReactor.Diagnostics
