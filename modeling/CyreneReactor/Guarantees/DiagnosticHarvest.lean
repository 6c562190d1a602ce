import CyreneReactor.Diagnostics.Recorded
import CyreneReactor.Diagnostics.Script

namespace CyreneReactor.Diagnostics

open Interaction DiagnosticsService

/-! The harvest of one append-only log by any number of requests.

A request reads the cursor, fetches a page, appends and saves in four transactions.
Each record is persisted once, in the order of the log, as long as no other request
comes in between.  A process that stops is a request that never moves again.
-/

/-- The page is a part of the log that starts at the cursor. -/
def ServedFrom (log : List Members) (cursor : Int) (limit : Nat) (page : Members) : Prop :=
  ∃ start count : Nat, cursor = start ∧ count ≤ limit ∧
    JsonValue.member? page "items" =
      some (.arr (((log.drop start).take count).map JsonValue.obj)) ∧
    JsonValue.member? page "nextSequence" =
      some (.int (start + ((log.drop start).take count).length : Nat))

/-- Every page is served from the log of its deployment. -/
def Environment.Served (environment : Environment) : Prop :=
  ∀ state caller engine executionRef cursor limit page,
    environment state caller (.request engine executionRef cursor limit) (.ok page) →
    ServedFrom (state.logs caller.command.id) cursor limit page

/-- The cursor was stored. -/
def Event.saved : Event → Bool
  | ⟨_, .setRuntimeDiagnosticsCursor _ sequence, _⟩ => storable sequence
  | _ => false

theorem Event.saved_of_saves {event : Event} (unsaved : event.saves = false) :
    event.saved = false := by
  unfold Event.saved
  split
  · cases unsaved
  · rfl

/-- Records of a page fetched by this event. -/
def Event.fetchedRecords (event : Event) : List Members :=
  match event.fetched? with
  | some (_, page) => pageRecords page
  | none => []

/-- A request for pages of `id` has appended records and not stored its cursor. -/
def unsaved (id : Uuid) (journal : List Event) (caller : Caller Command) : Bool :=
  (match caller.command with
    | .diagnostics target _ _ => target == id
    | .record _ _ _ _ => false) &&
  (own caller journal).any Event.appends && !(own caller journal).any Event.saved &&
  (own caller journal).any fun event => !event.fetchedRecords.isEmpty

/-- The cursor a request read is still the stored one. -/
def current (state : State) (caller : Caller Command) (id : Uuid) : Bool :=
  (own caller state.journal).all fun event =>
    match event.fetched? with
    | some (cursor, _) => cursor == runtimeDiagnosticsCursor state.cursors id
    | none => true

/-- Nobody comes between: records are appended while the cursor they were read at is
the stored one and no other request has still to store its own, and a cursor is
stored over the one that was read. -/
def inOrder (state : State) (caller : Caller Command) : Op → Bool
  | .appendDeploymentDiagnostics id _ =>
      (own caller state.journal).all (fun event => event.fetchedRecords.isEmpty) ||
        (current state caller id &&
          state.journal.all fun event => !unsaved id state.journal event.caller)
  | .setRuntimeDiagnosticsCursor id _ => current state caller id
  | _ => true

def Environment.InOrder (environment : Environment) : Prop :=
  ∀ state caller op answer, environment state caller op answer → inOrder state caller op = true

/-- Only the documents of runtime records have the member. -/
def isHarvested (document : Members) : Bool := (JsonValue.member? document "requestId").isSome

/-- A stored document without the sequence it was given. -/
def unstamped (document : Members) : Members := document.filter fun member => member.1 != "sequence"

/-- The runtime records stored for a deployment, as they were harvested. -/
def harvestedOf (database : Database) (id : Uuid) : List Members :=
  ((documentsOf database id).filter isHarvested).map unstamped

/-- The stored records are those of a prefix of the log, which reaches as far as the
cursor at least. -/
structure HarvestedOnce (service : DiagnosticsService) (state : State) (id : Uuid) : Prop where
  records : ∃ count : Nat, count ≤ (state.logs id).length ∧
    runtimeDiagnosticsCursor state.cursors id ≤ count ∧
    harvestedOf state.database id =
      ((state.logs id).take count).map (runtimeDocument service.printer id)
  ordered : (rowsOf state.database id).Pairwise fun earlier later =>
    earlier.sequence < later.sequence

section Documents

variable {service : DiagnosticsService} {id : Uuid} {page : Members} {documents : List Members}

theorem pageDocuments_harvested (shape : PageDocuments service id page documents) :
    documents.filter isHarvested = service.runtimeDocuments id page := by
  have harvested : (service.runtimeDocuments id page).filter isHarvested =
      service.runtimeDocuments id page := by
    refine List.filter_eq_self.mpr fun document member => ?_
    obtain ⟨record, _, rfl⟩ := List.mem_map.mp member
    rfl
  rcases shape with rfl | ⟨now, rfl⟩
  · exact harvested
  · rw [List.filter_append, harvested]
    have degraded : [degradedDocument id now].filter isHarvested = [] := rfl
    rw [degraded, List.append_nil]

theorem unstamped_stampSequence (document : Members) (sequence : Nat) :
    unstamped (Database.stampSequence document sequence) = unstamped document := by
  simp [unstamped, Database.stampSequence]

theorem isHarvested_stampSequence (document : Members) (sequence : Nat) :
    isHarvested (Database.stampSequence document sequence) = isHarvested document := by
  have named : ∀ member : String × JsonValue, (member.1 == "requestId") = true →
      (member.1 != "sequence") = true := by
    rintro ⟨name, _⟩ same
    rw [beq_iff_eq] at same
    subst same
    rfl
  simp only [isHarvested, Database.stampSequence, JsonValue.member?, Option.isSome_map,
    List.find?_append, List.find?_filter]
  have other : ([("sequence", JsonValue.int sequence)] : Members).find?
      (fun member => member.1 == "requestId") = none := rfl
  rw [other, Option.or_none]
  congr 2
  funext member
  cases same : member.1 == "requestId" with
  | true => simp [named member same]
  | false => simp

/-- What is stored of the runtime is what was appended of it. -/
theorem Recorded.harvestedOf {state : State} (recorded : Recorded service state) (id : Uuid) :
    harvestedOf state.database id =
      ((appended id state.journal).filter isHarvested).map unstamped := by
  have documents : documentsOf state.database id =
      (appended id state.journal).mapIdx fun index document =>
        Database.stampSequence document (index + 1) := by
    unfold documentsOf
    rw [recorded.rows]
    refine List.ext_getElem (by simp) fun index _ _ => ?_
    simp [rowAfter]
  unfold Diagnostics.harvestedOf
  rw [documents]
  induction appended id state.journal using List.reverseRecOn with
  | nil => rfl
  | append_singleton initial last ih =>
      rw [List.mapIdx_concat, List.filter_append, List.map_append, ih, List.filter_append,
        List.map_append]
      congr 1
      cases harvested : isHarvested last with
      | true => simp [isHarvested_stampSequence, harvested, unstamped_stampSequence]
      | false => simp [isHarvested_stampSequence, harvested]

end Documents

/-- A page that was fetched is, and stays, a part of the log. -/
structure Segment (log : List Members) (cursor : Int) (page : Members) (start : Nat) : Prop where
  cursor : cursor = start
  records : pageRecords page = (log.drop start).take (pageRecords page).length
  next : pageNext page = some ((start + (pageRecords page).length : Nat) : Int)

theorem ServedFrom.segment {log : List Members} {cursor : Int} {limit : Nat} {page : Members}
    (served : ServedFrom log cursor limit page) : ∃ start, Segment log cursor page start := by
  obtain ⟨start, count, same, _, items, next⟩ := served
  have records : pageRecords page = (log.drop start).take count := by
    unfold pageRecords
    rw [items]
    simp only [List.filterMap_map, Function.comp_def, List.filterMap_some]
  refine ⟨start, same, ?_, ?_⟩
  · rw [records, List.length_take, List.take_eq_take_iff]
    omega
  · rw [records]
    unfold pageNext
    rw [next]

theorem Segment.mono {log grown : List Members} {cursor : Int} {page : Members} {start : Nat}
    (segment : Segment log cursor page start) (extended : log <+: grown) :
    Segment grown cursor page start := by
  obtain ⟨more, rfl⟩ := extended
  refine ⟨segment.cursor, ?_, segment.next⟩
  have lengths := congrArg List.length segment.records
  rw [List.length_take] at lengths
  rw [List.drop_append, List.take_append_of_le_length (by omega)]
  exact segment.records

section Unsaved

variable {service : DiagnosticsService} {id : Uuid} {journal : List Event} {event : Event}
  {caller : Caller Command}

theorem fetchedRecords_iff {mine : List Event} :
    (mine.any fun event => !event.fetchedRecords.isEmpty) = true ↔
      ∃ cursor page, Fetched mine cursor page ∧ pageRecords page ≠ [] := by
  rw [List.any_eq_true]
  constructor
  · rintro ⟨event, member, some⟩
    unfold Event.fetchedRecords at some
    split at some
    · rename_i cursor page fetched
      exact ⟨cursor, page, ⟨event, member, fetched⟩, by simpa using some⟩
    · simp at some
  · rintro ⟨cursor, page, ⟨event, member, fetched⟩, some⟩
    refine ⟨event, member, ?_⟩
    unfold Event.fetchedRecords
    rw [fetched]
    simpa using some

theorem unsaved_iff : unsaved id journal caller = true ↔
    (∃ afterSequence limit, caller.command = .diagnostics id afterSequence limit) ∧
    (∃ event ∈ own caller journal, event.appends = true) ∧
    (∀ event ∈ own caller journal, event.saved = false) ∧
    ∃ cursor page, Fetched (own caller journal) cursor page ∧ pageRecords page ≠ [] := by
  unfold unsaved
  rw [Bool.and_eq_true, Bool.and_eq_true, Bool.and_eq_true, fetchedRecords_iff, List.any_eq_true,
    Bool.not_eq_true', List.any_eq_false]
  have commands : (match caller.command with
      | .diagnostics target _ _ => target == id
      | .record _ _ _ _ => false) = true ↔
      ∃ afterSequence limit, caller.command = .diagnostics id afterSequence limit := by
    cases caller.command <;> simp
  rw [commands]
  simp only [Bool.not_eq_true, and_assoc]

theorem unsaved_other (different : event.caller ≠ caller) :
    unsaved id (journal ++ [event]) caller = unsaved id journal caller := by
  unfold unsaved
  rw [own_append_other different]

theorem unsaved_foreign (foreign : ∀ afterSequence limit,
    caller.command ≠ .diagnostics id afterSequence limit) : unsaved id journal caller = false := by
  rw [← Bool.not_eq_true, unsaved_iff]
  rintro ⟨⟨afterSequence, limit, command⟩, _⟩
  exact foreign afterSequence limit command

/-- An event that neither appends nor saves changes nothing, unless it fetches after an append. -/
theorem unsaved_quiet (appends : event.appends = false) (saved : event.saved = false)
    (fetches : event.fetchedRecords = [] ∨
      ∀ earlier ∈ own event.caller journal, earlier.appends = false) :
    unsaved id (journal ++ [event]) caller = unsaved id journal caller := by
  by_cases mine : event.caller = caller
  · subst mine
    unfold unsaved
    rw [own_append_own rfl]
    rcases fetches with none | unappended
    · simp [appends, saved, none]
    · have never : (own event.caller journal).any Event.appends = false := by
        rw [List.any_eq_false]
        simpa using unappended
      simp [appends, never]
  · exact unsaved_other mine

/-- Who has fetched a page without records owes nothing. -/
theorem unsaved_empty {state : State} {cursor : Int} {page : Members}
    (recorded : Recorded service state) (fetched : Fetched (own caller state.journal) cursor page)
    (none : pageRecords page = []) : unsaved id state.journal caller = false := by
  rw [← Bool.not_eq_true]
  intro owes
  obtain ⟨_, _, _, _, otherPage, again, records⟩ := unsaved_iff.mp owes
  obtain ⟨_, same⟩ := recorded.fetchedOnce _ _ _ _ _ again fetched
  exact records (same ▸ none)

theorem current_iff {state : State} : current state caller id = true ↔
    ∀ cursor page, Fetched (own caller state.journal) cursor page →
      cursor = runtimeDiagnosticsCursor state.cursors id := by
  unfold current
  rw [List.all_eq_true]
  constructor
  · rintro all cursor page ⟨event, member, fetched⟩
    have same := all event member
    rw [fetched] at same
    simpa using same
  · intro all event member
    split
    · rename_i cursor page fetched
      simpa using all cursor page ⟨event, member, fetched⟩
    · rfl

end Unsaved

/-- The first `count` records of the log are stored; the cursor stands there, or at
the page of the one request that has still to store it. -/
structure HarvestedTo (service : DiagnosticsService) (state : State) (id : Uuid) (count : Nat) :
    Prop where
  within : count ≤ (state.logs id).length
  reached : runtimeDiagnosticsCursor state.cursors id ≤ count
  records : (appended id state.journal).filter isHarvested =
    ((state.logs id).take count).map (runtimeDocument service.printer id)
  pending : ∀ caller, unsaved id state.journal caller = true → ∀ cursor page,
    Fetched (own caller state.journal) cursor page →
    cursor = runtimeDiagnosticsCursor state.cursors id ∧
      (count : Int) = cursor + (pageRecords page).length
  settled : (∀ caller, unsaved id state.journal caller = false) →
    runtimeDiagnosticsCursor state.cursors id = count
  sole : ∀ first second, unsaved id state.journal first = true →
    unsaved id state.journal second = true → first = second

structure Orderly (service : DiagnosticsService) (state : State) : Prop where
  recorded : Recorded service state
  served : ∀ caller cursor page, Fetched (own caller state.journal) cursor page →
    ∃ start, Segment (state.logs caller.command.id) cursor page start
  harvested : ∀ id, ∃ count, HarvestedTo service state id count

section Steps

variable {service : DiagnosticsService} {environment : Environment} {caller : Caller Command}
  {state next : State} {op : Op} {answer : op.Answer} {id : Uuid} {count : Nat}

/-- Nothing is harvested while nothing of the runtime is appended, the cursor stands
and no request comes to owe its cursor. -/
theorem HarvestedTo.frame (harvested : HarvestedTo service state id count)
    (recorded : Recorded service next)
    (performs : Performs service environment caller op state answer next)
    (records : (Event.documents id ⟨caller, op, answer⟩).filter isHarvested = [])
    (cursor : runtimeDiagnosticsCursor next.cursors id = runtimeDiagnosticsCursor state.cursors id)
    (owing : ∀ other, unsaved id next.journal other = unsaved id state.journal other) :
    HarvestedTo service next id count where
  within := Nat.le_trans harvested.within (performs.logs id).length_le
  reached := by
    rw [cursor]
    exact harvested.reached
  records := by
    obtain ⟨more, grown⟩ := performs.logs id
    rw [performs.journal, appended_append, List.filter_append, records, List.append_nil,
      harvested.records, ← grown, List.take_append_of_le_length harvested.within]
  pending := by
    intro other owes found page fetched
    rw [owing] at owes
    obtain ⟨_, _, _, cursorBefore, pageBefore, fetchedBefore, _⟩ := unsaved_iff.mp owes
    have kept : Fetched (own other next.journal) cursorBefore pageBefore := by
      rw [performs.journal]
      exact fetchedBefore.mono (own_grown _ _ _)
    obtain ⟨rfl, rfl⟩ := recorded.fetchedOnce other _ _ _ _ fetched kept
    rw [cursor]
    exact harvested.pending other owes _ _ fetchedBefore
  settled := by
    intro none
    rw [cursor]
    exact harvested.settled fun other => by rw [← owing, none]
  sole := by
    intro first second left right
    rw [owing] at left right
    exact harvested.sole first second left right

/-- Who has still to store a cursor has events in the journal. -/
theorem none_unsaved {journal : List Event}
    (none : ∀ event ∈ journal, unsaved id journal event.caller = false) (other : Caller Command) :
    unsaved id journal other = false := by
  cases owes : unsaved id journal other with
  | false => rfl
  | true =>
      obtain ⟨_, ⟨event, member, _⟩, _⟩ := unsaved_iff.mp owes
      obtain ⟨present, mine⟩ := List.mem_filter.mp member
      have settled := none event present
      rw [of_decide_eq_true mine, owes] at settled
      cases settled

/-- Records that were fetched at the end of what is stored are appended in order. -/
theorem HarvestedTo.append {documents : List Members} {page : Members} {cursor : Int} {start : Nat}
    {afterSequence limit : Int} {answer : Unit} (harvested : HarvestedTo service state id count)
    (recorded : Recorded service next)
    (performs : Performs service environment caller (.appendDeploymentDiagnostics id documents)
      state answer next)
    (command : caller.command = .diagnostics id afterSequence limit)
    (fetched : Fetched (own caller state.journal) cursor page)
    (shape : PageDocuments service id page documents)
    (segment : Segment (state.logs id) cursor page start)
    (unstored : ∀ event ∈ own caller state.journal, event.saves = false)
    (here : cursor = runtimeDiagnosticsCursor state.cursors id)
    (alone : ∀ other, unsaved id state.journal other = false)
    (some : pageRecords page ≠ []) :
    HarvestedTo service next id (count + (pageRecords page).length) := by
  have cursors : next.cursors = state.cursors := performs.cursors
  have stood : (start : Int) = count :=
    segment.cursor.symm.trans (here.trans (harvested.settled alone))
  have stood : start = count := Int.ofNat.inj stood
  subst stood
  have lengths := congrArg List.length segment.records
  rw [List.length_take, List.length_drop] at lengths
  have within : start + (pageRecords page).length ≤ (state.logs id).length := by
    have bound := harvested.within
    omega
  have mine : Event.caller ⟨caller, .appendDeploymentDiagnostics id documents, answer⟩ = caller := rfl
  have kept : Fetched (own caller next.journal) cursor page := by
    rw [performs.journal]
    exact fetched.mono (own_grown _ _ _)
  have owes : ∀ other, unsaved id next.journal other = true → other = caller := by
    intro other owes
    by_contra different
    rw [performs.journal, unsaved_other (mine ▸ Ne.symm different), alone] at owes
    cases owes
  refine ⟨?_, ?_, ?_, ?_, ?_, ?_⟩
  · exact Nat.le_trans within (performs.logs id).length_le
  · rw [cursors]
    have reached := harvested.reached
    omega
  · obtain ⟨more, grown⟩ := performs.logs id
    have written : Event.documents id
        ⟨caller, .appendDeploymentDiagnostics id documents, answer⟩ = documents := if_pos rfl
    rw [performs.journal, appended_append, List.filter_append, harvested.records, written,
      pageDocuments_harvested shape, ← grown, List.take_append_of_le_length within, List.take_add,
      List.map_append, ← segment.records]
    rfl
  · intro other owing otherCursor otherPage again
    obtain rfl := owes other owing
    obtain ⟨rfl, rfl⟩ := recorded.fetchedOnce _ _ _ _ _ kept again
    rw [cursors]
    refine ⟨here, ?_⟩
    rw [segment.cursor]
    omega
  · intro none
    have owing : unsaved id next.journal caller = true := by
      refine unsaved_iff.mpr ⟨⟨_, _, command⟩, ?_, ?_, cursor, page, kept, some⟩
      · refine ⟨⟨caller, .appendDeploymentDiagnostics id documents, answer⟩, ?_, rfl⟩
        rw [performs.journal, own_append_own mine]
        exact List.mem_append_right _ (List.mem_singleton.mpr rfl)
      · intro event member
        rw [performs.journal, own_append_own mine] at member
        rcases List.mem_append.mp member with earlier | last
        · exact Event.saved_of_saves (unstored event earlier)
        · rw [List.mem_singleton.mp last]
          rfl
    rw [none] at owing
    cases owing
  · intro first second left right
    rw [owes first left, owes second right]

/-- The request that owes its cursor stores it. -/
theorem HarvestedTo.save {page : Members} {cursor sequence : Int} {start : Nat}
    {answer : Except Failure Unit} (harvested : HarvestedTo service state id count)
    (performs : Performs service environment caller (.setRuntimeDiagnosticsCursor id sequence)
      state answer next)
    (fetched : Fetched (own caller state.journal) cursor page)
    (next_eq : pageNext page = some sequence)
    (segment : Segment (state.logs id) cursor page start) (fits : storable sequence = true)
    (owes : unsaved id state.journal caller = true) : HarvestedTo service next id count := by
  have stored : runtimeDiagnosticsCursor next.cursors id = sequence := by
    have cursors : next.cursors = _ := performs.cursors
    rw [cursors]
    simp only [Op.cursors, fits, if_true]
    exact cursor_set _ _ _
  have ends : sequence = count := by
    obtain ⟨_, reaches⟩ := harvested.pending caller owes cursor page fetched
    have same := next_eq.symm.trans segment.next
    rw [Option.some.injEq] at same
    rw [same, reaches, segment.cursor]
    omega
  have mine : Event.caller ⟨caller, .setRuntimeDiagnosticsCursor id sequence, answer⟩ = caller := rfl
  have settled : ∀ other, unsaved id next.journal other = false := by
    intro other
    cases owing : unsaved id next.journal other with
    | false => rfl
    | true =>
        by_cases different : other = caller
        · subst different
          obtain ⟨_, _, unstored, _⟩ := unsaved_iff.mp owing
          have last := unstored ⟨other, .setRuntimeDiagnosticsCursor id sequence, answer⟩ (by
            rw [performs.journal, own_append_own mine]
            exact List.mem_append_right _ (List.mem_singleton.mpr rfl))
          exact absurd (last.symm.trans fits) Bool.false_ne_true
        · rw [performs.journal, unsaved_other (mine ▸ Ne.symm different)] at owing
          exact absurd (harvested.sole other caller owing owes) different
  refine ⟨?_, ?_, ?_, ?_, ?_, ?_⟩
  · exact Nat.le_trans harvested.within (performs.logs id).length_le
  · exact Int.le_of_eq (stored.trans ends)
  · obtain ⟨more, grown⟩ := performs.logs id
    have written : Event.documents id
        ⟨caller, .setRuntimeDiagnosticsCursor id sequence, answer⟩ = [] := rfl
    rw [performs.journal, appended_append, written, List.append_nil, harvested.records, ← grown,
      List.take_append_of_le_length harvested.within]
  · intro other owing
    rw [settled] at owing
    cases owing
  · intro _
    rw [stored, ends]
  · intro first second owing
    rw [settled] at owing
    cases owing

/-- An event that neither appends nor saves, and fetches nothing once something was appended. -/
theorem HarvestedTo.quiet (harvested : HarvestedTo service state id count)
    (recorded : Recorded service next)
    (performs : Performs service environment caller op state answer next)
    (appends : Event.appends ⟨caller, op, answer⟩ = false)
    (saves : Event.saves ⟨caller, op, answer⟩ = false)
    (fetches : Event.fetchedRecords ⟨caller, op, answer⟩ = [] ∨
      ∀ earlier ∈ own caller state.journal, earlier.appends = false) :
    HarvestedTo service next id count := by
  refine harvested.frame recorded performs ?_ ?_ fun other => ?_
  · cases op with
    | appendDeploymentDiagnostics => cases appends
    | utcNow | getDeployment | getExecutionRef | runtimeDiagnosticsCursor | request
    | setRuntimeDiagnosticsCursor | listDeploymentDiagnostics | deploymentDiagnosticsDegraded =>
        rfl
  · rw [performs.cursors]
    cases op with
    | setRuntimeDiagnosticsCursor => cases saves
    | utcNow | getDeployment | getExecutionRef | runtimeDiagnosticsCursor | request
    | appendDeploymentDiagnostics | listDeploymentDiagnostics | deploymentDiagnosticsDegraded =>
        rfl
  · rw [performs.journal]
    exact unsaved_quiet appends (Event.saved_of_saves saves) fetches

/-- The step of a request for another deployment. -/
theorem HarvestedTo.foreign (harvested : HarvestedTo service state id count)
    (recorded : Recorded service next)
    (performs : Performs service environment caller op state answer next)
    (records : (Event.documents id ⟨caller, op, answer⟩).filter isHarvested = [])
    (cursor : runtimeDiagnosticsCursor next.cursors id = runtimeDiagnosticsCursor state.cursors id)
    (elsewhere : ∀ afterSequence limit, caller.command ≠ .diagnostics id afterSequence limit) :
    HarvestedTo service next id count := by
  refine harvested.frame recorded performs records cursor fun other => ?_
  by_cases mine : caller = other
  · subst mine
    rw [unsaved_foreign elsewhere, unsaved_foreign elsewhere]
  · have different : Event.caller ⟨caller, op, answer⟩ ≠ other := mine
    rw [performs.journal, unsaved_other different]

/-- Appends are in order. -/
theorem Orderly.append {id target : Uuid} {documents : List Members} {answer : Unit}
    (orderly : Orderly service state) (recorded : Recorded service next)
    (performs : Performs service environment caller
      (.appendDeploymentDiagnostics target documents) state answer next)
    (permits : Permits service caller (own caller state.journal)
      (.appendDeploymentDiagnostics target documents))
    (ordered : inOrder state caller (.appendDeploymentDiagnostics target documents) = true) :
    ∃ count, HarvestedTo service next id count := by
  obtain ⟨count, harvested⟩ := orderly.harvested id
  have cursors : next.cursors = state.cursors := performs.cursors
  obtain ⟨rfl, source, unused⟩ := permits
  by_cases same : caller.command.id = id
  · subst same
    have written : Event.documents caller.command.id
        ⟨caller, .appendDeploymentDiagnostics caller.command.id documents, answer⟩ = documents :=
      if_pos rfl
    unfold Source at source
    split at source
    · rename_i target message level code command
      obtain ⟨now, rfl⟩ := source
      refine ⟨count, harvested.foreign recorded performs ?_ (by rw [cursors]) fun _ _ same => ?_⟩
      · rw [written]
        rfl
      · rw [command] at same
        cases same
    · rename_i target afterSequence limit command
      have named : caller.command.id = target := by rw [command]; rfl
      obtain ⟨cursor, page, fetched, shape⟩ := source
      by_cases some : pageRecords page = []
      · refine ⟨count, harvested.frame recorded performs ?_ (by rw [cursors]) fun other => ?_⟩
        · rw [written, pageDocuments_harvested shape]
          simp only [runtimeDocuments, some, List.map_nil]
        · by_cases mine : caller = other
          · subst mine
            have kept : Fetched (own caller next.journal) cursor page := by
              rw [performs.journal]
              exact fetched.mono (own_grown _ _ _)
            rw [unsaved_empty orderly.recorded fetched some, unsaved_empty recorded kept some]
          · have different : Event.caller ⟨caller, .appendDeploymentDiagnostics
                caller.command.id documents, answer⟩ ≠ other := mine
            rw [performs.journal, unsaved_other different]
      · have listed : ¬ (own caller state.journal).all
            (fun event => event.fetchedRecords.isEmpty) = true := by
          intro none
          have found := fetchedRecords_iff.mpr ⟨cursor, page, fetched, some⟩
          obtain ⟨event, member, records⟩ := List.any_eq_true.mp found
          have nothing := List.all_eq_true.mp none event member
          rw [nothing] at records
          cases records
        simp only [inOrder, Bool.or_eq_true, Bool.and_eq_true] at ordered
        obtain ⟨here, alone⟩ := ordered.resolve_left listed
        obtain ⟨start, segment⟩ := orderly.served caller cursor page fetched
        have mine : caller.command = .diagnostics caller.command.id afterSequence limit := by
          rw [command]
          rfl
        refine ⟨_, harvested.append recorded performs mine fetched ?_ segment
          (fun event member => (unused event member).2)
          (current_iff.mp here cursor page fetched) ?_ some⟩
        · rw [named]
          exact shape
        · refine none_unsaved fun event member => ?_
          simpa using List.all_eq_true.mp alone event member
  · refine ⟨count, harvested.foreign recorded performs ?_ (by rw [cursors]) fun _ _ command => ?_⟩
    · have nothing : Event.documents id
          ⟨caller, .appendDeploymentDiagnostics caller.command.id documents, answer⟩ = [] :=
        if_neg same
      rw [nothing]
      rfl
    · rw [command] at same
      exact same rfl

/-- What a stored cursor was, and is. -/
theorem Orderly.saved_cursor {target : Uuid} {sequence : Int} {answer : Except Failure Unit}
    (orderly : Orderly service state)
    (performs : Performs service environment caller (.setRuntimeDiagnosticsCursor target sequence)
      state answer next)
    (permits : Permits service caller (own caller state.journal)
      (.setRuntimeDiagnosticsCursor target sequence))
    (ordered : inOrder state caller (.setRuntimeDiagnosticsCursor target sequence) = true) :
    ∃ page start, Fetched (own caller state.journal) (start : Nat) page ∧
      Segment (state.logs target) (start : Nat) page start ∧ pageNext page = some sequence ∧
      runtimeDiagnosticsCursor state.cursors target = start ∧
      sequence = start + (pageRecords page).length ∧
      next.cursors = if storable sequence then
        setRuntimeDiagnosticsCursor state.cursors target sequence else state.cursors := by
  obtain ⟨⟨afterSequence, limit, command⟩, _, cursor, page, fetched, next_eq, _⟩ := permits
  obtain ⟨start, segment⟩ := orderly.served caller cursor page fetched
  have same := segment.cursor
  subst same
  have named : caller.command.id = target := by rw [command]; rfl
  have here := current_iff.mp ordered _ page fetched
  have ends := next_eq.symm.trans segment.next
  rw [Option.some.injEq] at ends
  rw [named] at segment
  exact ⟨page, start, fetched, segment, next_eq, here.symm, by rw [ends]; rfl, performs.cursors⟩

/-- Cursors are stored in order. -/
theorem Orderly.save {target : Uuid} {sequence : Int} {answer : Except Failure Unit}
    (orderly : Orderly service state) (recorded : Recorded service next)
    (performs : Performs service environment caller (.setRuntimeDiagnosticsCursor target sequence)
      state answer next)
    (permits : Permits service caller (own caller state.journal)
      (.setRuntimeDiagnosticsCursor target sequence))
    (ordered : inOrder state caller (.setRuntimeDiagnosticsCursor target sequence) = true) (id : Uuid) :
    ∃ count, HarvestedTo service next id count := by
  obtain ⟨count, harvested⟩ := orderly.harvested id
  obtain ⟨page, start, fetched, segment, next_eq, here, ends, cursors⟩ :=
    orderly.saved_cursor performs permits ordered
  obtain ⟨⟨afterSequence, limit, command⟩, unsavedBefore, otherCursor, otherPage, again, _,
    persisted⟩ := permits
  obtain ⟨rfl, rfl⟩ := orderly.recorded.fetchedOnce _ _ _ _ _ fetched again
  by_cases same : target = id
  · subst same
    by_cases fits : storable sequence = true
    · by_cases owes : unsaved target state.journal caller = true
      · exact ⟨count, harvested.save performs fetched next_eq segment fits owes⟩
      · have empty : pageRecords page = [] := by
          by_contra some
          have appends := persisted (by simpa [runtimeDocuments] using some)
          exact owes (unsaved_iff.mpr ⟨⟨_, _, command⟩, appends,
            fun event member => Event.saved_of_saves (unsavedBefore event member), _, page,
            fetched, some⟩)
        refine ⟨count, harvested.frame recorded performs rfl ?_ fun other => ?_⟩
        · rw [cursors, if_pos fits, cursor_set, here, ends, empty]
          exact Int.add_zero _
        · by_cases mine : caller = other
          · subst mine
            have kept : Fetched (own caller next.journal) (start : Nat) page := by
              rw [performs.journal]
              exact fetched.mono (own_grown _ _ _)
            rw [unsaved_empty orderly.recorded fetched empty, unsaved_empty recorded kept empty]
          · have different : Event.caller
                ⟨caller, .setRuntimeDiagnosticsCursor target sequence, answer⟩ ≠ other := mine
            rw [performs.journal, unsaved_other different]
    · refine ⟨count, harvested.frame recorded performs rfl ?_ fun other => ?_⟩
      · rw [cursors, if_neg fits]
      · have refused : Event.saved
            ⟨caller, .setRuntimeDiagnosticsCursor target sequence, answer⟩ = false := by
          simpa [Event.saved] using fits
        rw [performs.journal]
        exact unsaved_quiet rfl refused (.inl rfl)
  · refine ⟨count, harvested.foreign recorded performs rfl ?_ fun _ _ other => ?_⟩
    · rw [cursors]
      split
      · exact cursor_set_other _ _ (Ne.symm same)
      · rfl
    · rw [command] at other
      cases other
      exact same rfl

theorem Orderly.cursor_le (orderly : Orderly service state)
    (performs : Performs service environment caller op state answer next)
    (permits : Permits service caller (own caller state.journal) op)
    (ordered : inOrder state caller op = true) (id : Uuid) :
    runtimeDiagnosticsCursor state.cursors id ≤ runtimeDiagnosticsCursor next.cursors id := by
  cases op with
  | setRuntimeDiagnosticsCursor target sequence =>
      obtain ⟨page, start, _, _, _, here, ends, cursors⟩ :=
        orderly.saved_cursor performs permits ordered
      rw [cursors]
      split
      · by_cases same : id = target
        · subst same
          rw [cursor_set, here, ends]
          omega
        · exact Int.le_of_eq (cursor_set_other _ _ same).symm
      · exact Int.le_refl _
  | utcNow | getDeployment | getExecutionRef | runtimeDiagnosticsCursor | request
  | appendDeploymentDiagnostics | listDeploymentDiagnostics | deploymentDiagnosticsDegraded =>
      rw [performs.cursors]
      exact Int.le_refl _

theorem fetched_answer {cursor : Int} {page : Members}
    (fetched : Event.fetched? ⟨caller, op, answer⟩ = some (cursor, page)) :
    ∃ engine executionRef limit, op = .request engine executionRef cursor limit ∧
      HEq answer (Except.ok page : Except Raised Members) := by
  cases op with
  | request engine executionRef asked limit =>
      have reply : ∀ answer : Except Raised Members,
          Event.fetched? ⟨caller, .request engine executionRef asked limit, answer⟩ =
            some (cursor, page) → asked = cursor ∧ answer = .ok page := by
        intro answer fetched
        simp only [Event.fetched?, readDiagnostics] at fetched
        split at fetched
        · rename_i found
          split at found <;> try cases found
          split at found <;> cases found
          cases fetched
          exact ⟨rfl, rfl⟩
        · cases fetched
      obtain ⟨rfl, same⟩ := reply answer fetched
      exact ⟨engine, executionRef, limit, rfl, heq_of_eq same⟩
  | utcNow | getDeployment | getExecutionRef | runtimeDiagnosticsCursor
  | appendDeploymentDiagnostics | setRuntimeDiagnosticsCursor | listDeploymentDiagnostics
  | deploymentDiagnosticsDegraded => cases fetched

/-- Pages that were fetched stay parts of the log. -/
theorem Orderly.segments (orderly : Orderly service state) (served : environment.Served)
    (performs : Performs service environment caller op state answer next)
    {other : Caller Command} {cursor : Int} {page : Members}
    (fetched : Fetched (own other next.journal) cursor page) :
    ∃ start, Segment (next.logs other.command.id) cursor page start := by
  have earlier : Fetched (own other state.journal) cursor page →
      ∃ start, Segment (next.logs other.command.id) cursor page start := by
    intro before
    obtain ⟨start, segment⟩ := orderly.served other cursor page before
    exact ⟨start, segment.mono (performs.logs _)⟩
  rw [performs.journal] at fetched
  by_cases mine : caller = other
  · subst mine
    have same : Event.caller ⟨caller, op, answer⟩ = caller := rfl
    rw [own_append_own same] at fetched
    rcases fetched_append.mp fetched with before | last
    · exact earlier before
    · obtain ⟨engine, executionRef, limit, rfl, replied⟩ := fetched_answer last
      obtain rfl := eq_of_heq replied
      obtain ⟨start, segment⟩ :=
        (served _ _ _ _ _ _ _ performs.admitted).segment
      exact ⟨start, segment.mono (performs.logs _)⟩
  · have different : Event.caller ⟨caller, op, answer⟩ ≠ other := mine
    rw [own_append_other different] at fetched
    exact earlier fetched

/-- Every step keeps the order. -/
theorem Orderly.step (orderly : Orderly service state) (served : environment.Served)
    (ordered : environment.InOrder)
    (performs : Performs service environment caller op state answer next)
    (permits : Permits service caller (own caller state.journal) op) : Orderly service next := by
  have recorded : Recorded service next := orderly.recorded.step performs permits
  refine ⟨recorded, fun _ _ _ => orderly.segments served performs, fun id => ?_⟩
  have admitted := ordered state caller op answer performs.admitted
  obtain ⟨count, harvested⟩ := orderly.harvested id
  cases op with
  | appendDeploymentDiagnostics target documents =>
      exact orderly.append recorded performs permits admitted
  | setRuntimeDiagnosticsCursor target sequence =>
      exact orderly.save recorded performs permits admitted id
  | request engine executionRef cursor limit =>
      have fresh : Fresh (own caller state.journal) := permits
      exact ⟨count, harvested.quiet recorded performs rfl rfl
        (.inr fun event member => (fresh event member).2.1)⟩
  | utcNow | getDeployment | getExecutionRef | runtimeDiagnosticsCursor
  | listDeploymentDiagnostics | deploymentDiagnosticsDegraded =>
      exact ⟨count, harvested.quiet recorded performs rfl rfl (.inl rfl)⟩

end Steps

theorem orderly_opened (service : DiagnosticsService) (logs : Uuid → List Members) :
    Orderly service (State.opened logs) where
  recorded := recorded_opened logs
  served := by
    rintro _ _ _ ⟨_, member, _⟩
    exact absurd member List.not_mem_nil
  harvested id := by
    have nobody : ∀ caller, unsaved id [] caller = false := fun caller =>
      none_unsaved (fun _ member => absurd member List.not_mem_nil) caller
    refine ⟨0, Nat.zero_le _, Int.le_refl _, rfl, ?_, fun _ => rfl, ?_⟩
    · intro caller owes
      rw [State.opened, nobody] at owes
      cases owes
    · intro first second owes
      rw [State.opened, nobody] at owes
      cases owes

section Runs

variable {service : DiagnosticsService} {environment : Environment}
  {logs : Uuid → List Members} {pool next : Pool (service.system environment)}

theorem orderly (served : environment.Served) (ordered : environment.InOrder)
    (reached : Reachable (State.opened logs) pool) : Orderly service pool.state := by
  induction reached with
  | refl => exact orderly_opened service logs
  | tail before step ih =>
      rcases permitted before step with same | ⟨_, _, _, performs, permits⟩
      · rw [same]
        exact ih
      · exact ih.step served ordered performs permits

theorem cursor_le_step (served : environment.Served) (ordered : environment.InOrder)
    (reached : Reachable (State.opened logs) pool) (step : Step pool next) (id : Uuid) :
    runtimeDiagnosticsCursor (State.cursors pool.state) id ≤
      runtimeDiagnosticsCursor (State.cursors next.state) id := by
  rcases permitted reached step with same | ⟨_, _, _, performs, permits⟩
  · exact Int.le_of_eq (congrArg (fun state => runtimeDiagnosticsCursor (State.cursors state) id)
      same.symm)
  · exact (orderly served ordered reached).cursor_le performs permits
      (ordered _ _ _ _ performs.admitted) id

/-- A document of the runtime loses nothing with the sequence it is given. -/
theorem unstamped_runtimeDocument (printer : Printer) (id : Uuid) (record : Members) :
    unstamped (runtimeDocument printer id record) = runtimeDocument printer id record := rfl

theorem Orderly.harvestedOnce {state : State} (orderly : Orderly service state) (id : Uuid) :
    HarvestedOnce service state id := by
  obtain ⟨count, harvested⟩ := orderly.harvested id
  refine ⟨⟨count, harvested.within, harvested.reached, ?_⟩, orderly.recorded.numbered.ordered id⟩
  rw [orderly.recorded.harvestedOf, harvested.records, List.map_map]
  rfl

/-- While nobody comes between, every record is persisted once and in the order of the
log, none up to the cursor is missing, and no cursor moves backwards. -/
theorem harvested_once (service : DiagnosticsService) (environment : Environment)
    {logs : Uuid → List Members} {pool : Pool (service.system environment)}
    (served : environment.Served) (ordered : environment.InOrder)
    (reached : Reachable (State.opened logs) pool) :
    ∀ id, HarvestedOnce service pool.state id ∧
      ∀ later, Relation.ReflTransGen Step pool later →
        runtimeDiagnosticsCursor (State.cursors pool.state) id ≤
          runtimeDiagnosticsCursor (State.cursors later.state) id := by
  intro id
  refine ⟨(orderly served ordered reached).harvestedOnce id, fun later run => ?_⟩
  induction run with
  | refl => exact Int.le_refl _
  | tail before step ih =>
      exact Int.le_trans ih (cursor_le_step served ordered (reached.trans before) step id)

end Runs

namespace Sample

/-- Pages are asked for as the harvest does. -/
def asked : Binding.Occurs := fun _ _ op =>
  match op with
  | .request _ _ cursor limit => decide (0 ≤ cursor ∧ limit = 500)
  | _ => true

/-- Nobody comes between. -/
def askedInOrder : Binding.Occurs := fun state caller op =>
  asked state caller op && inOrder state caller op

theorem logging_served {occurs : Binding.Occurs} (asks : ∀ state caller op,
    occurs state caller op = true → asked state caller op = true) :
    (logging.world diagnostics occurs).Served := by
  intro state caller engine executionRef cursor limit page ⟨occurred, replied⟩
  have fits := of_decide_eq_true (asks _ _ _ occurred)
  obtain ⟨start, rfl⟩ := Int.eq_ofNat_of_zero_le fits.1
  cases replied
  exact ⟨start, 500, rfl, fits.2.ge, rfl, rfl⟩

theorem logging_inOrder : (logging.world diagnostics askedInOrder).InOrder := by
  intro state caller op answer ⟨occurred, _⟩
  exact (Bool.and_eq_true_iff.mp occurred).2

/-- A runtime that has written one line. -/
def oneLine : Uuid → List Members := fun _ => [line "info" "started"]

/-- Two requests for it, one after the other. -/
def polled : Pool (diagnostics.system (logging.world diagnostics askedInOrder)) :=
  logging.play diagnostics askedInOrder oneLine
    [.start (Binding.ask ⟨0⟩), .start (Binding.ask ⟨0⟩), .run 0 20, .run 1 20]

/-- Two requests that fetch the line before either appends it. -/
def raced : Pool (diagnostics.system (logging.world diagnostics asked)) :=
  logging.play diagnostics asked oneLine
    [.start (Binding.ask ⟨0⟩), .start (Binding.ask ⟨0⟩), .run 0 4, .run 1 4, .run 0 2, .run 1 2]

end Sample

theorem harvested_once_polled :
    HarvestedOnce Sample.diagnostics Sample.polled.state ⟨0⟩ ∧
      (∀ later, Relation.ReflTransGen Step Sample.polled later →
        runtimeDiagnosticsCursor (State.cursors Sample.polled.state) ⟨0⟩ ≤
          runtimeDiagnosticsCursor (State.cursors later.state) ⟨0⟩) ∧
      (harvestedOf (State.database Sample.polled.state) ⟨0⟩).length = 1 := by
  have reached : Reachable (State.opened Sample.oneLine) Sample.polled :=
    Sample.logging.play_reached _ _ _ _
  have once := harvested_once Sample.diagnostics _
    (Sample.logging_served fun _ _ _ occurred => (Bool.and_eq_true_iff.mp occurred).1)
    Sample.logging_inOrder reached ⟨0⟩
  exact ⟨once.1, once.2, by decide +kernel⟩

/-- The line is persisted twice. -/
theorem harvest_duplicated :
    (Sample.logging.world Sample.diagnostics Sample.asked).Served ∧
    ∃ pool : Pool (Sample.diagnostics.system (Sample.logging.world Sample.diagnostics Sample.asked)),
      Reachable (State.opened Sample.oneLine) pool ∧
        ¬ HarvestedOnce Sample.diagnostics pool.state ⟨0⟩ := by
  refine ⟨Sample.logging_served fun _ _ _ occurred => occurred, Sample.raced,
    Binding.play_reached _ _ _ _ _, fun once => ?_⟩
  obtain ⟨count, within, _, records⟩ := once.records
  have logged : (State.logs Sample.raced.state ⟨0⟩).length = 1 := by decide +kernel
  have twice : (harvestedOf (State.database Sample.raced.state) ⟨0⟩).length = 2 := by
    decide +kernel
  rw [records, List.length_map, List.length_take] at twice
  omega

end CyreneReactor.Diagnostics
