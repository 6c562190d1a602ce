import CyreneReactor.Diagnostics.Paging
import CyreneReactor.Guarantees.DiagnosticRecords

namespace CyreneReactor.Diagnostics

open Interaction DiagnosticsService

/-! Whether reading page by page comes to an end with everything read. -/

section Stream

variable {database : Database} {id : Uuid} {afterSequence limit : Int}

theorem Numbered.sequence_eq (numbered : Numbered database) {index : Nat} {row : DiagnosticRow}
    (here : (rowsOf database id)[index]? = some row) : row.sequence = index + 1 := by
  have bound := (List.getElem?_eq_some_iff.mp here).1
  have numbers := congrArg (fun pairs => pairs[index]?) (numbered id)
  simp only [List.getElem?_map, here, Option.map_some, List.getElem?_range bound,
    Option.some.injEq, Prod.mk.injEq] at numbers
  exact numbers.2

theorem Numbered.list_eq (numbered : Numbered database) (below : 0 ≤ afterSequence)
    (low : 1 ≤ limit) (high : limit ≤ 500) :
    listDeploymentDiagnostics database id afterSequence limit =
      ((documentsOf database id).drop afterSequence.toNat).take limit.toNat := by
  have found : (rowsOf database id).filter (fun row => decide (afterSequence < row.sequence)) =
      (rowsOf database id).drop afterSequence.toNat := by
    refine Paging.filter_eq_drop fun index row here => ?_
    rw [decide_eq_true_iff, numbered.sequence_eq here]
    omega
  have sorted : ((rowsOf database id).drop afterSequence.toNat).mergeSort
      (fun left right => decide (left.sequence ≤ right.sequence)) =
        (rowsOf database id).drop afterSequence.toNat := by
    refine List.mergeSort_of_pairwise ?_
    refine ((numbered.ordered id).sublist (List.drop_sublist _ _)).imp fun earlier => ?_
    exact decide_eq_true (Nat.le_of_lt earlier)
  have bounded : max 1 (min limit 500) = limit := by omega
  simp only [listDeploymentDiagnostics, found, sorted, bounded, documentsOf, List.map_take,
    List.map_drop]

/-- Where two of the fields of a record are read from. -/
theorem fields_of_valid {printer : Printer} {document : Members} {record : DiagnosticRecord}
    (valid : DiagnosticRecord.modelValidate printer document = some record) :
    (field? document "sequence").bind positive? = some record.sequence ∧
      (field? document "timestamp").bind (text? printer) = some record.timestamp := by
  unfold DiagnosticRecord.modelValidate at valid
  obtain ⟨_, _, valid⟩ := Option.bind_eq_some_iff.mp valid
  simp only [Option.bind_eq_bind, Option.bind_eq_some_iff] at valid
  obtain ⟨_, ⟨_, sequenceFound, positive⟩, _, ⟨_, timestampFound, text⟩, rest⟩ := valid
  obtain ⟨_, _, _, _, _, _, _, _, _, _, _, _, _, _, _, _, _, _, _, _, made⟩ := rest
  cases made
  exact ⟨Option.bind_eq_some_iff.mpr ⟨_, sequenceFound, positive⟩,
    Option.bind_eq_some_iff.mpr ⟨_, timestampFound, text⟩⟩

theorem sequence_of_stamped {printer : Printer} {written : Members} {sequence : Nat}
    {record : DiagnosticRecord} (valid : DiagnosticRecord.modelValidate printer
      (Database.stampSequence written sequence) = some record) :
    record.sequence.val = sequence := by
  have absent : (written.filter fun member => member.1 != "sequence").find?
      (fun member => member.1 == "sequence") = none := by
    refine List.find?_eq_none.mpr fun member kept => ?_
    simpa using (List.mem_filter.mp kept).2
  have stamped : field? (Database.stampSequence written sequence) "sequence" =
      some (.int sequence) := by
    simp [field?, JsonValue.member?, Database.stampSequence, List.find?_append, absent]
  have read := (fields_of_valid valid).1
  simp only [stamped, Option.bind_some, positive?, Option.dite_none_right_eq_some,
    Option.some.injEq] at read
  obtain ⟨_, same⟩ := read
  rw [← same]

/-- The records count from one. -/
theorem sequence_of_persisted {service : DiagnosticsService} {state : State}
    (recorded : Recorded service state)
    (readable : ∀ document ∈ documentsOf state.database id, Readable service.printer document)
    {index : Nat} {record : DiagnosticRecord}
    (here : (persisted service.printer state.database id)[index]? = some record) :
    record.sequence.val = index + 1 := by
  have mapped := Paging.map_of_readable readable
  have found := congrArg (fun values => values[index]?) mapped
  simp only [List.getElem?_map] at found
  rw [show ((documentsOf state.database id).filterMap
    (DiagnosticRecord.modelValidate service.printer))[index]? =
    some record from here] at found
  obtain ⟨document, stored, valid⟩ := Option.map_eq_some_iff.mp found
  unfold documentsOf at stored
  rw [recorded.rows, List.getElem?_map, List.getElem?_mapIdx, Option.map_map,
    Option.map_eq_some_iff] at stored
  obtain ⟨written, _, rfl⟩ := stored
  have numbered : record.sequence.val = ((0 + index + 1 : Nat) : Int) := sequence_of_stamped valid
  omega

theorem remaining_eq {service : DiagnosticsService} {state : State}
    (recorded : Recorded service state)
    (readable : ∀ document ∈ documentsOf state.database id, Readable service.printer document)
    (below : 0 ≤ afterSequence) :
    remaining service.printer state.database id afterSequence =
      (persisted service.printer state.database id).drop afterSequence.toNat := by
  refine Paging.filter_eq_drop fun index record here => ?_
  rw [decide_eq_true_iff, sequence_of_persisted recorded readable here]
  omega

end Stream

section Page

variable {service : DiagnosticsService} {state : State} {id : Uuid} {afterSequence limit : Int}
  {page : DiagnosticsPage} {deployment : Deployment} {degraded : Bool}
  {records kept : List DiagnosticRecord}

theorem bounded_spec (records : List DiagnosticRecord) (count : Nat) :
    ∃ kept ≤ count, bounded records count = records.take kept ∧
      dumpsRecords (records.take kept) ≤ diagnosticsPageMaxBytes ∧
      ∀ other ≤ count, dumpsRecords (records.take other) ≤ diagnosticsPageMaxBytes →
        other ≤ kept := by
  induction count with
  | zero =>
      refine ⟨0, Nat.le_refl 0, rfl, ?_, fun other bound _ => bound⟩
      simp only [List.take_zero]
      decide
  | succ count ih =>
      unfold bounded
      split
      · rename_i above
        obtain ⟨kept, bound, same, fitting, longest⟩ := ih
        refine ⟨kept, Nat.le_succ_of_le bound, same, fitting, fun other below fits => ?_⟩
        rcases Nat.lt_or_eq_of_le below with earlier | rfl
        · exact longest other (Nat.le_of_lt_succ earlier) fits
        · omega
      · rename_i fitting
        exact ⟨count + 1, Nat.le_refl _, rfl, Nat.le_of_not_lt fitting, fun other bound _ => bound⟩

/-- What the byte bound leaves of the first `limit` records is as long as both bounds
allow. -/
theorem boundDiagnostics_longest (low : 0 ≤ limit) :
    Paging.Longest (Fits limit) (boundDiagnostics (records.take limit.toNat)) records := by
  obtain ⟨kept, bound, same, fitting, longest⟩ :=
    bounded_spec (records.take limit.toNat) (records.take limit.toNat).length
  have few : kept ≤ limit.toNat := Nat.le_trans bound (List.length_take_le _ _)
  rw [List.take_take, Nat.min_eq_left few] at same fitting
  refine ⟨?_, ?_, ?_⟩
  · rw [boundDiagnostics, same]
    exact List.take_prefix kept records
  · rw [boundDiagnostics, same]
    refine ⟨?_, fitting⟩
    have length := List.length_take_le kept records
    omega
  · intro other isPrefix fits
    obtain ⟨short, light⟩ := fits
    have within : other.length ≤ limit.toNat := by omega
    have taken : other = records.take other.length := List.prefix_iff_eq_take.mp isPrefix
    have reached : other.length ≤ (records.take limit.toNat).length := by
      rw [List.length_take]
      exact Nat.le_min.mpr ⟨within, isPrefix.length_le⟩
    have below := longest other.length reached (by
      rw [List.take_take, Nat.min_eq_left within, ← taken]
      exact light)
    rw [boundDiagnostics, same, List.length_take]
    exact Nat.le_min.mpr ⟨below, isPrefix.length_le⟩

theorem validateAll_eq {printer : Printer} {documents : List Members}
    (validated : validateAll printer documents = .ok records) :
    documents.map (DiagnosticRecord.modelValidate printer) = records.map some := by
  induction documents generalizing records with
  | nil =>
      cases validated
      rfl
  | cons document rest ih =>
      simp only [validateAll] at validated
      cases valid : DiagnosticRecord.modelValidate printer document with
      | none =>
          rw [valid] at validated
          cases validated
      | some record =>
          cases others : validateAll printer rest with
          | error failure =>
              rw [valid, others] at validated
              cases validated
          | ok values =>
              rw [valid, others] at validated
              cases validated
              rw [List.map_cons, valid, ih others]
              rfl

theorem yields_call_bind {α : Type} {op : Op} {next : op.Answer → Diagnosing α} {value : α} :
    (call op >>= next).run.Yields (Quiet service state) (.ok value) ↔
      ∃ answer, Quiet service state op answer ∧
        (next answer).run.Yields (Quiet service state) (.ok value) := by
  constructor
  · intro yields
    obtain ⟨answer, answered, rest⟩ := Fallible.yields_bind_ok.mp yields
    exact ⟨answer, Fallible.yields_perform.mp answered, rest⟩
  · rintro ⟨answer, answered, rest⟩
    exact Fallible.yields_bind_ok.mpr ⟨answer, Fallible.yields_perform.mpr answered, rest⟩

/-- What a request tells of the stored stream. -/
def pageOf (id : Uuid) (afterSequence : Int) (deployment : Deployment)
    (degraded : Bool) (records : List DiagnosticRecord) : DiagnosticsPage where
  resourceId := id.str
  items := boundDiagnostics records
  nextSequence := ((boundDiagnostics records).getLast?.map fun record =>
    record.sequence.val).getD afterSequence
  terminal := deployment.observedState = .stopped ∨ deployment.observedState = .failed
  diagnosticsDegraded := degraded

theorem items_of_readPage
    (yields : (service.readPage deployment id afterSequence limit degraded).run.Yields
      (Quiet service state) (.ok page)) :
    ∃ records lost, validateAll service.printer
        (listDeploymentDiagnostics state.database id afterSequence limit) = .ok records ∧
      storable afterSequence = true ∧
      page = pageOf id afterSequence deployment lost records := by
  obtain ⟨listed, answered, rest⟩ := yields_call_bind.mp yields
  obtain ⟨documents, read, rest⟩ := Fallible.yields_bind_ok.mp rest
  obtain ⟨records, validated, rest⟩ := Fallible.yields_bind_ok.mp rest
  have made : ∃ lost, (.ok (pageOf id afterSequence deployment lost records) :
      Except Failure DiagnosticsPage) = .ok page := by
    cases degraded with
    | true =>
        obtain ⟨lost, _, made⟩ := Fallible.yields_bind_ok.mp rest
        exact ⟨lost, made⟩
    | false =>
        obtain ⟨lost, _, made⟩ := yields_call_bind.mp rest
        exact ⟨lost, made⟩
  obtain ⟨lost, made⟩ := made
  have read : listed = .ok documents := read
  obtain ⟨_, answered⟩ := answered
  have answered : listed = if storable afterSequence then
      .ok (listDeploymentDiagnostics state.database id afterSequence limit)
    else .error .overflowError := answered
  cases fits : storable afterSequence with
  | false =>
      rw [fits, read] at answered
      cases answered
  | true =>
      rw [fits, read] at answered
      cases answered
      have validated : validateAll service.printer
          (listDeploymentDiagnostics state.database id afterSequence limit) = .ok records := validated
      exact ⟨records, lost, validated, rfl, (Except.ok.inj made).symm⟩

/-- The harvest of a request leaves nothing of its own in the page but the flag. -/
theorem items_of_served (served : Served service state id afterSequence limit page) :
    ∃ deployment records lost, 0 ≤ afterSequence ∧ storable afterSequence = true ∧
      validateAll service.printer
        (listDeploymentDiagnostics state.database id afterSequence limit) = .ok records ∧
      page = pageOf id afterSequence deployment lost records := by
  unfold Served deploymentDiagnostics at served
  split at served
  · cases served
  · rename_i below
    obtain ⟨found, _, rest⟩ := yields_call_bind.mp served
    cases found with
    | none => cases rest
    | some deployment =>
        obtain ⟨degraded, _, read⟩ := Fallible.yields_bind_ok.mp rest
        obtain ⟨records, lost, validated, fits, made⟩ := items_of_readPage read
        exact ⟨deployment, records, lost, Int.not_lt.mp below, fits, validated, made⟩

/-- A deployment without an execution is answered from the store alone. -/
theorem served_of_validated {records : List DiagnosticRecord} (below : 0 ≤ afterSequence)
    (fits : storable afterSequence = true)
    (validated : validateAll service.printer
      (listDeploymentDiagnostics state.database id afterSequence limit) = .ok records) :
    ∃ page, Served service state id afterSequence limit page := by
  refine ⟨pageOf id afterSequence (Binding.deployment id)
    ((documentsOf state.database id).any service.mentionsDegraded) records, ?_⟩
  unfold Served deploymentDiagnostics
  rw [if_neg (Int.not_lt.mpr below)]
  refine yields_call_bind.mpr ⟨some (Binding.deployment id), ⟨state.cursors, ?_⟩, ?_⟩
  · rintro deployment same
    cases same
    rfl
  · refine Fallible.yields_bind_ok.mpr ⟨false, ?_, ?_⟩
    · refine yields_call_bind.mpr ⟨none, ⟨state.cursors, trivial⟩, ?_⟩
      exact rfl
    · refine yields_call_bind.mpr ⟨.ok (listDeploymentDiagnostics state.database id afterSequence
        limit), ⟨state.cursors, (if_pos fits).symm⟩, ?_⟩
      refine Fallible.yields_bind_ok.mpr ⟨_, rfl, ?_⟩
      refine Fallible.yields_bind_ok.mpr ⟨records, validated, ?_⟩
      refine yields_call_bind.mpr ⟨_, ⟨state.cursors, rfl⟩, rfl⟩

end Page

section Pages

variable {service : DiagnosticsService} {state : State} {id : Uuid} {afterSequence limit : Int}
  {page : DiagnosticsPage} {record : DiagnosticRecord} {pages : List DiagnosticsPage} {start : Nat}

/-- What is asked for is there to be read. -/
structure Readiness (service : DiagnosticsService) (state : State) (id : Uuid) (limit : Int) :
    Prop where
  recorded : Recorded service state
  readable : ∀ document ∈ documentsOf state.database id, Readable service.printer document
  low : 1 ≤ limit
  high : limit ≤ 500

theorem Readiness.items_eq (ready : Readiness service state id limit)
    (served : Served service state id afterSequence limit page) :
    page.items = boundDiagnostics (((persisted service.printer state.database id).drop
      afterSequence.toNat).take limit.toNat) := by
  obtain ⟨deployment, records, lost, below, _, validated, rfl⟩ := items_of_served served
  rw [ready.recorded.numbered.list_eq below ready.low ready.high] at validated
  have read := validateAll_eq validated
  rw [List.map_take, List.map_drop, Paging.map_of_readable ready.readable, ← List.map_drop,
    ← List.map_take] at read
  have same := List.map_injective_iff.mpr (fun _ _ both => Option.some.inj both) read
  exact congrArg boundDiagnostics same.symm

theorem Readiness.longest (ready : Readiness service state id limit)
    (served : Served service state id afterSequence limit page) :
    Paging.Longest (Fits limit) page.items
      (remaining service.printer state.database id afterSequence) := by
  obtain ⟨_, _, _, below, _⟩ := items_of_served served
  rw [remaining_eq ready.recorded ready.readable below, ready.items_eq served]
  exact boundDiagnostics_longest (Int.le_trans Int.one_nonneg ready.low)

/-- The next page starts where this one ends. -/
theorem Readiness.nextSequence_eq (ready : Readiness service state id limit)
    (served : Served service state id afterSequence limit page) :
    page.nextSequence = afterSequence + page.items.length := by
  have isPrefix := (ready.longest served).isPrefix
  obtain ⟨deployment, records, lost, below, _, _, rfl⟩ := items_of_served served
  rw [remaining_eq ready.recorded ready.readable below] at isPrefix
  change boundDiagnostics records <+: _ at isPrefix
  change ((boundDiagnostics records).getLast?.map fun record => record.sequence.val).getD
    afterSequence = afterSequence + (boundDiagnostics records).length
  cases last : (boundDiagnostics records).getLast? with
  | none =>
      rw [List.getLast?_eq_none_iff] at last
      simp [last]
  | some record =>
      rw [List.getLast?_eq_getElem?] at last
      obtain ⟨bound, value⟩ := List.getElem?_eq_some_iff.mp last
      have here := List.prefix_iff_getElem?.mp isPrefix _ bound
      rw [value, List.getElem?_drop] at here
      have numbered := sequence_of_persisted ready.recorded ready.readable here
      simp only [Option.map_some, Option.getD_some, numbered]
      omega

/-- A page with its place in the stream. -/
def PageAt (service : DiagnosticsService) (state : State) (id : Uuid) (limit : Int) (start : Nat)
    (items : List DiagnosticRecord) : Prop :=
  ∃ page, Served service state id start limit page ∧ page.items = items

theorem Readiness.chain (ready : Readiness service state id limit)
    (following : Following service state id limit start pages) :
    Paging.Chain (PageAt service state id limit) start (pages.map DiagnosticsPage.items) := by
  induction pages generalizing start with
  | nil => trivial
  | cons page rest ih =>
      obtain ⟨served, later⟩ := following
      refine ⟨⟨page, served, rfl⟩, ih ?_⟩
      rw [ready.nextSequence_eq served] at later
      exact_mod_cast later

theorem Readiness.pageAt_prefix (ready : Readiness service state id limit) (start : Nat)
    (items : List DiagnosticRecord) (served : PageAt service state id limit start items) :
    items <+: (persisted service.printer state.database id).drop start := by
  obtain ⟨page, served, rfl⟩ := served
  have isPrefix := (ready.longest served).isPrefix
  rwa [remaining_eq ready.recorded ready.readable (Int.natCast_nonneg start)] at isPrefix

/-- One record of a page is no longer than the page. -/
theorem dumpsRecords_single (record : DiagnosticRecord) (rest : List DiagnosticRecord) :
    dumpsRecords [record] ≤ dumpsRecords (record :: rest) := by
  simp only [dumpsRecords, List.map_cons, List.map_nil, List.length_cons, List.length_nil, total,
    List.foldr_cons, List.foldr_nil]
  omega

theorem increasing_of_ready (ready : Readiness service state id limit) :
    (persisted service.printer state.database id).Pairwise fun earlier later =>
      earlier.sequence.val < later.sequence.val := by
  refine List.pairwise_iff_getElem.mpr fun first second firstBound secondBound before => ?_
  rw [sequence_of_persisted ready.recorded ready.readable (List.getElem?_eq_getElem firstBound),
    sequence_of_persisted ready.recorded ready.readable (List.getElem?_eq_getElem secondBound)]
  omega

/-- Where each record fits on a page of its own, no page is empty before the end. -/
theorem Readiness.progress (ready : Readiness service state id limit)
    (fit : ∀ record ∈ persisted service.printer state.database id,
      storable (record.sequence.val - 1) = true →
      dumpsRecords [record] ≤ diagnosticsPageMaxBytes)
    (served : Served service state id afterSequence limit page) (empty : page.items = []) :
    remaining service.printer state.database id afterSequence = [] := by
  have longest := ready.longest served
  obtain ⟨_, _, _, below, fits, _⟩ := items_of_served served
  cases left : remaining service.printer state.database id afterSequence with
  | nil => rfl
  | cons record rest =>
      rw [left] at longest
      rw [remaining_eq ready.recorded ready.readable below] at left
      have here : (persisted service.printer state.database id)[afterSequence.toNat]? =
          some record := by
        have first := congrArg (fun values => values[0]?) left
        simpa [List.getElem?_drop] using first
      have numbered := sequence_of_persisted ready.recorded ready.readable here
      have stored : storable (record.sequence.val - 1) = true := by
        rw [show record.sequence.val - 1 = afterSequence by omega]
        exact fits
      have light := fit record (List.mem_of_getElem? here) stored
      have low := ready.low
      exact absurd empty (longest.ne_nil ⟨by simpa using low, light⟩)

theorem Readiness.answered (ready : Readiness service state id limit) (below : 0 ≤ afterSequence)
    (fits : storable afterSequence = true) :
    ∃ page, Served service state id afterSequence limit page := by
  have valid : (validateAll service.printer
      (listDeploymentDiagnostics state.database id afterSequence limit)).isOk = true :=
    validateAll_ok fun document member => ready.readable document (mem_listed member)
  cases validated : validateAll service.printer
      (listDeploymentDiagnostics state.database id afterSequence limit) with
  | error failure =>
      rw [validated] at valid
      cases valid
  | ok records => exact served_of_validated below fits validated

theorem Readiness.paged (ready : Readiness service state id limit)
    (fit : ∀ record ∈ persisted service.printer state.database id,
      storable (record.sequence.val - 1) = true →
      dumpsRecords [record] ≤ diagnosticsPageMaxBytes) : Paged service state id limit where
  increasing := increasing_of_ready ready
  answered := fun _ below fits => ready.answered below fits
  longest := fun _ _ served => ready.longest served
  progress := fun _ _ served empty => ready.progress fit served empty
  ordered := fun pages following => by
    have chain : Paging.Chain (PageAt service state id limit) 0 (pages.map DiagnosticsPage.items) :=
      ready.chain (show Following service state id limit ((0 : Nat) : Int) pages from following)
    simpa [List.flatMap_def] using chain.isPrefix ready.pageAt_prefix
  complete := fun pages following enough => by
    have chain : Paging.Chain (PageAt service state id limit) 0 (pages.map DiagnosticsPage.items) :=
      ready.chain (show Following service state id limit ((0 : Nat) : Int) pages from following)
    have whole := chain.complete ready.pageAt_prefix (fun start served => ?_) (by simpa using enough)
    · simpa [List.flatMap_def] using whole
    · obtain ⟨page, served, empty⟩ := served
      have left := ready.progress fit served empty
      rwa [remaining_eq ready.recorded ready.readable (Int.natCast_nonneg start)] at left

/-- Where reading comes to an end, the page after each record's predecessor holds it. -/
theorem Readiness.fit (ready : Readiness service state id limit)
    (paged : Paged service state id limit)
    (member : record ∈ persisted service.printer state.database id)
    (stored : storable (record.sequence.val - 1) = true) :
    dumpsRecords [record] ≤ diagnosticsPageMaxBytes := by
  obtain ⟨index, here⟩ := List.getElem?_of_mem member
  have numbered := sequence_of_persisted ready.recorded ready.readable here
  obtain ⟨page, served⟩ := paged.answered (record.sequence.val - 1) (by omega) stored
  have longest := paged.longest _ page served
  have left : remaining service.printer state.database id (record.sequence.val - 1) =
      record :: (persisted service.printer state.database id).drop (index + 1) := by
    rw [remaining_eq ready.recorded ready.readable (by omega),
      show (record.sequence.val - 1).toNat = index by omega]
    obtain ⟨bound, value⟩ := List.getElem?_eq_some_iff.mp here
    rw [List.drop_eq_getElem_cons bound, value]
  cases items : page.items with
  | nil =>
      have nothing := paged.progress _ page served items
      rw [left] at nothing
      cases nothing
  | cons first rest =>
      rw [left, items] at longest
      obtain ⟨rfl, _⟩ := List.cons_prefix_cons.mp longest.isPrefix
      exact Nat.le_trans (dumpsRecords_single first rest) longest.fitting.2

end Pages

/-- Reading page by page is complete and never stands still, exactly if each record fits
on a page of its own. -/
theorem diagnostics_paged_iff (service : DiagnosticsService) (environment : Environment)
    {logs : Uuid → List Members} {pool : Pool (service.system environment)}
    (reached : Reachable (State.opened logs) pool) (id : Uuid) (limit : Int)
    (readable : ∀ document ∈ documentsOf (State.database pool.state) id,
      Readable service.printer document)
    (low : 1 ≤ limit) (high : limit ≤ 500) :
    Paged service pool.state id limit ↔
      ∀ record ∈ persisted service.printer (State.database pool.state) id,
        storable (record.sequence.val - 1) = true →
        dumpsRecords [record] ≤ diagnosticsPageMaxBytes := by
  have ready : Readiness service pool.state id limit := ⟨recorded reached, readable, low, high⟩
  constructor
  · exact fun paged record member stored => ready.fit paged member stored
  · exact fun fit => ready.paged fit

namespace Sample

/-- A record with a timestamp of its own. -/
def noted (timestamp : String) : Members :=
  [("timestamp", .str timestamp), ("level", .str "info"), ("message", .str "started")]

abbrev noting (timestamps : List String) : Binding := repeating (timestamps.map noted)

/-- A request has harvested the records. -/
def notes (timestamps : List String) :
    Pool (diagnostics.system ((noting timestamps).world diagnostics always)) :=
  (noting timestamps).play diagnostics always (fun _ => []) [.start (Binding.ask ⟨0⟩), .run 0 5]

def storedNote (timestamp : String) (place : Nat) : Members :=
  Database.stampSequence (runtimeDocument diagnostics.printer ⟨0⟩ (noted timestamp)) (place + 1)

theorem readable_note (timestamp : String) (place : Nat) :
    Readable diagnostics.printer (storedNote timestamp place) := by
  refine (runtimeDocument_valid diagnostics.printer ⟨0⟩ (noted timestamp) place).mpr ?_
  have absent (key : String) (missing : JsonValue.member? (noted timestamp) key = none) :
      MemberShort diagnostics.printer (noted timestamp) key := by
    intro value found
    rw [missing] at found
    cases found
  refine ⟨rfl, ?_, ?_, absent _ rfl, rfl, absent _ rfl, absent _ rfl⟩
  · rintro _ ⟨⟩
    exact ⟨"info", by decide, rfl⟩
  · rintro _ ⟨⟩

theorem documentsOf_notes (timestamp : String) :
    documentsOf (State.database (notes [timestamp]).state) ⟨0⟩ = [storedNote timestamp 0] := rfl

/-- One second after the other. -/
def seconds : List String :=
  ["2000-01-01T00:00:00+00:00", "2000-01-01T00:00:01+00:00", "2000-01-01T00:00:02+00:00"]

theorem readable_seconds :
    ∀ document ∈ documentsOf (State.database (notes seconds).state) ⟨0⟩,
      Readable diagnostics.printer document := by
  have stored : documentsOf (State.database (notes seconds).state) ⟨0⟩ =
      seconds.mapIdx fun place timestamp => storedNote timestamp place := rfl
  intro document member
  rw [stored] at member
  obtain ⟨place, bound, rfl⟩ := List.mem_mapIdx.mp member
  exact readable_note _ place

end Sample

theorem dumpsText_replicate (count : Nat) :
    dumpsText (String.ofList (List.replicate count 'a')) = count + 2 := by
  have letter : dumpsChar 'a' = 1 := by decide
  have letters : total (List.replicate count 1) = count := by
    induction count with
    | zero => rfl
    | succ count ih =>
        simp only [total, List.replicate_succ, List.foldr_cons] at ih ⊢
        omega
  simp only [dumpsText, String.toList_ofList, List.map_replicate, letter, letters]

/-- A record is longer than its timestamp. -/
theorem dumpsText_lt (record : DiagnosticRecord) :
    dumpsText record.timestamp < dumpsRecords [record] := by
  simp only [dumpsRecords, dumpsRecord, total, List.map_cons, List.map_nil, List.foldr_cons,
    List.foldr_nil, List.length_cons, List.length_nil]
  omega

/-- A runtime that sends a timestamp of a mebibyte: its record is on no page. -/
theorem diagnostics_page_stands_still :
    ∃ (binding : Binding) (pool : Pool (Sample.diagnostics.system
        (binding.world Sample.diagnostics Sample.always))),
      Reachable (State.opened fun _ => []) pool ∧
      (∀ document ∈ documentsOf (State.database pool.state) ⟨0⟩,
        Readable Sample.diagnostics.printer document) ∧
      ¬ Paged Sample.diagnostics pool.state ⟨0⟩ 200 := by
  let timestamp := String.ofList (List.replicate diagnosticsPageMaxBytes 'a')
  have reached : Reachable (State.opened fun _ => []) (Sample.notes [timestamp]) :=
    Binding.play_reached _ _ _ _ _
  have readable : ∀ document ∈ documentsOf (State.database (Sample.notes [timestamp]).state) ⟨0⟩,
      Readable Sample.diagnostics.printer document := by
    intro document member
    rw [Sample.documentsOf_notes, List.mem_singleton] at member
    rw [member]
    exact Sample.readable_note timestamp 0
  refine ⟨Sample.noting [timestamp], Sample.notes [timestamp], reached, readable, fun paged => ?_⟩
  obtain ⟨record, valid⟩ := Option.isSome_iff_exists.mp
    (readable (Sample.storedNote timestamp 0) (List.mem_singleton.mpr rfl))
  have member : record ∈ persisted Sample.diagnostics.printer
      (State.database (Sample.notes [timestamp]).state) ⟨0⟩ :=
    List.mem_filterMap.mpr ⟨_, List.mem_singleton.mpr rfl, valid⟩
  have first : record.sequence.val = 1 := sequence_of_stamped valid
  have ready : Readiness Sample.diagnostics (Sample.notes [timestamp]).state ⟨0⟩ 200 :=
    ⟨recorded reached, readable, by decide, by decide⟩
  have fits := ready.fit paged member (by rw [first]; decide)
  have long := dumpsText_lt record
  have same : some timestamp = some record.timestamp := (fields_of_valid valid).2
  rw [← Option.some.inj same, dumpsText_replicate] at long
  omega

/-- Three records on pages of two. -/
theorem diagnostics_paged_iff_noted :
    (persisted Sample.diagnostics.printer (State.database (Sample.notes Sample.seconds).state)
        ⟨0⟩).length = 3 ∧
      (Paged Sample.diagnostics (Sample.notes Sample.seconds).state ⟨0⟩ 2 ↔
        ∀ record ∈ persisted Sample.diagnostics.printer
            (State.database (Sample.notes Sample.seconds).state) ⟨0⟩,
          storable (record.sequence.val - 1) = true →
          dumpsRecords [record] ≤ diagnosticsPageMaxBytes) :=
  ⟨by decide +kernel, diagnostics_paged_iff Sample.diagnostics _ (Binding.play_reached _ _ _ _ _)
    ⟨0⟩ 2 Sample.readable_seconds (by decide) (by decide)⟩

end CyreneReactor.Diagnostics
