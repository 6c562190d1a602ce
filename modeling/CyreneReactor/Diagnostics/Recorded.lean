import CyreneReactor.Diagnostics.Verified

namespace CyreneReactor.Diagnostics

open Interaction DiagnosticsService

/-! The stored rows are what was appended, and what was appended has a source. -/

/-- What holds of every state of every run. -/
structure Recorded (service : DiagnosticsService) (state : State) : Prop where
  numbered : Numbered state.database
  rows : ∀ id, rowsOf state.database id = (appended id state.journal).mapIdx (rowAfter id 0)
  listed : ∀ event ∈ state.journal, ∀ id documents, event.listed? = some (id, documents) →
    ∀ document ∈ documents, document ∈ documentsOf state.database id
  sourced : ∀ caller id documents answer,
    ⟨caller, .appendDeploymentDiagnostics id documents, answer⟩ ∈ state.journal →
    id = caller.command.id ∧ Source service caller (own caller state.journal) documents
  fetchedOnce : ∀ caller first left second right, Fetched (own caller state.journal) first left →
    Fetched (own caller state.journal) second right → first = second ∧ left = right

variable {service : DiagnosticsService} {environment : Environment} {caller : Caller Command}
  {state next : State} {op : Op} {answer : op.Answer}

theorem mem_listed {database : Database} {id : Uuid} {afterSequence limit : Int}
    {document : Members}
    (member : document ∈ listDeploymentDiagnostics database id afterSequence limit) :
    document ∈ documentsOf database id := by
  obtain ⟨row, taken, rfl⟩ := List.mem_map.mp member
  have found := List.mem_mergeSort.mp (List.mem_of_mem_take taken)
  exact List.mem_map_of_mem (List.mem_filter.mp found).1

theorem Source.mono {mine later : List Event} {documents : List Members}
    (source : Source service caller mine documents) (grown : mine <+: later) :
    Source service caller later documents := by
  unfold Source at source ⊢
  split at source
  · exact source
  · obtain ⟨cursor, page, fetched, shape⟩ := source
    exact ⟨cursor, page, fetched.mono grown, shape⟩

/-- Rows are only added. -/
theorem Performs.documentsOf (performs : Performs service environment caller op state answer next)
    (numbered : Numbered state.database) (id : Uuid) :
    documentsOf state.database id <+: documentsOf next.database id := by
  rw [performs.database]
  cases op with
  | appendDeploymentDiagnostics target documents =>
      simp only [Op.effect, Diagnostics.documentsOf]
      by_cases same : id = target
      · subst same
        rw [numbered.rowsOf_append, List.map_append]
        exact List.prefix_append _ _
      · exact numbered.rowsOf_append_other same ▸ List.prefix_rfl
  | utcNow | getDeployment | getExecutionRef | runtimeDiagnosticsCursor | request
  | setRuntimeDiagnosticsCursor | listDeploymentDiagnostics | deploymentDiagnosticsDegraded =>
      exact List.prefix_rfl

theorem Performs.numbered (performs : Performs service environment caller op state answer next)
    (numbered : Numbered state.database) : Numbered next.database := by
  rw [performs.database]
  cases op with
  | appendDeploymentDiagnostics target documents => exact numbered.append
  | utcNow | getDeployment | getExecutionRef | runtimeDiagnosticsCursor | request
  | setRuntimeDiagnosticsCursor | listDeploymentDiagnostics | deploymentDiagnosticsDegraded =>
      exact numbered

theorem rowAfter_shift (id : Uuid) (count offset : Nat) :
    rowAfter id 0 (offset + count) = rowAfter id count offset := by
  funext document
  simp [rowAfter, Nat.add_comm]

theorem Performs.rows (performs : Performs service environment caller op state answer next)
    (numbered : Numbered state.database) {id : Uuid}
    (rows : rowsOf state.database id = (appended id state.journal).mapIdx (rowAfter id 0)) :
    rowsOf next.database id = (appended id next.journal).mapIdx (rowAfter id 0) := by
  rw [performs.database, performs.journal, appended_append, List.mapIdx_append, ← rows]
  have unchanged : Event.documents id ⟨caller, op, answer⟩ = [] →
      rowsOf (op.effect state.database) id = rowsOf state.database id →
      rowsOf (op.effect state.database) id = rowsOf state.database id ++
        (Event.documents id ⟨caller, op, answer⟩).mapIdx fun offset =>
          rowAfter id 0 (offset + (appended id state.journal).length) := by
    intro nothing same
    rw [nothing, List.mapIdx_nil, List.append_nil, same]
  cases op with
  | appendDeploymentDiagnostics target documents =>
      by_cases same : target = id
      · subst same
        have counted :
            (appended target state.journal).length = (rowsOf state.database target).length := by
          rw [rows, List.length_mapIdx]
        simp only [Event.documents, if_true, Op.effect, counted]
        rw [numbered.rowsOf_append]
        simp only [rowAfter_shift]
      · exact unchanged (if_neg same) (numbered.rowsOf_append_other (Ne.symm same))
  | utcNow | getDeployment | getExecutionRef | runtimeDiagnosticsCursor | request
  | setRuntimeDiagnosticsCursor | listDeploymentDiagnostics | deploymentDiagnosticsDegraded =>
      exact unchanged rfl rfl

theorem fetched_append {mine : List Event} {event : Event} {cursor : Int} {page : Members} :
    Fetched (mine ++ [event]) cursor page ↔
      Fetched mine cursor page ∨ event.fetched? = some (cursor, page) := by
  simp [Fetched, or_and_right, exists_or]

theorem Event.requests_of_fetched {event : Event} {fetched : Int × Members}
    (some : event.fetched? = some fetched) : event.requests = true := by
  unfold Event.fetched? at some
  split at some
  · rfl
  · cases some

theorem Recorded.step (recorded : Recorded service state)
    (performs : Performs service environment caller op state answer next)
    (permits : Permits service caller (own caller state.journal) op) : Recorded service next where
  numbered := performs.numbered recorded.numbered
  rows id := performs.rows recorded.numbered (recorded.rows id)
  listed := by
    intro event member id documents listed document found
    have grown := performs.documentsOf recorded.numbered id
    rw [performs.journal] at member
    rcases List.mem_append.mp member with earlier | last
    · exact grown.subset (recorded.listed event earlier id documents listed document found)
    · rw [List.mem_singleton.mp last] at listed
      cases op with
      | listDeploymentDiagnostics target afterSequence limit =>
          by_cases fits : storable afterSequence = true
          · have answered : answer =
                .ok (listDeploymentDiagnostics state.database target afterSequence limit) :=
              performs.answers.trans (if_pos fits)
            subst answered
            cases listed
            exact grown.subset (mem_listed found)
          · have answered : answer = .error .overflowError := performs.answers.trans (if_neg fits)
            subst answered
            cases listed
      | utcNow | getDeployment | getExecutionRef | runtimeDiagnosticsCursor | request
      | appendDeploymentDiagnostics | setRuntimeDiagnosticsCursor
      | deploymentDiagnosticsDegraded => cases listed
  sourced := by
    intro other id documents reply member
    have grown := own_grown other state.journal ⟨caller, op, answer⟩
    rw [performs.journal] at member ⊢
    rcases List.mem_append.mp member with earlier | last
    · obtain ⟨named, source⟩ := recorded.sourced other id documents reply earlier
      exact ⟨named, source.mono grown⟩
    · cases List.mem_singleton.mp last
      exact ⟨permits.1, permits.2.1.mono grown⟩
  fetchedOnce := by
    intro other first left second right fetchedLeft fetchedRight
    rw [performs.journal] at fetchedLeft fetchedRight
    by_cases mine : caller = other
    · subst mine
      have mine : Event.caller ⟨caller, op, answer⟩ = caller := rfl
      rw [own_append_own mine] at fetchedLeft fetchedRight
      have sole : ∀ {cursor page found}, Fetched (own caller state.journal) cursor page →
          Event.fetched? ⟨caller, op, answer⟩ = some found → False := by
        rintro cursor page found ⟨event, member, fetched⟩ again
        cases op with
        | request =>
            have none := (permits event member).1
            rw [Event.requests_of_fetched fetched] at none
            cases none
        | utcNow | getDeployment | getExecutionRef | runtimeDiagnosticsCursor
        | appendDeploymentDiagnostics | setRuntimeDiagnosticsCursor | listDeploymentDiagnostics
        | deploymentDiagnosticsDegraded => cases again
      rcases fetched_append.mp fetchedLeft with earlier | last
      · rcases fetched_append.mp fetchedRight with other | again
        · exact recorded.fetchedOnce caller first left second right earlier other
        · exact (sole earlier again).elim
      · rcases fetched_append.mp fetchedRight with earlier | again
        · exact (sole earlier last).elim
        · rw [last, Option.some.injEq, Prod.mk.injEq] at again
          exact again
    · rw [own_append_other mine] at fetchedLeft fetchedRight
      exact recorded.fetchedOnce other first left second right fetchedLeft fetchedRight

theorem recorded_opened (logs : Uuid → List Members) : Recorded service (State.opened logs) where
  numbered := numbered_empty
  rows _ := rfl
  listed _ member := absurd member List.not_mem_nil
  sourced _ _ _ _ member := absurd member List.not_mem_nil
  fetchedOnce := by
    rintro _ _ _ _ _ ⟨_, member, _⟩
    exact absurd member List.not_mem_nil

theorem recorded {logs : Uuid → List Members} {pool : Pool (service.system environment)}
    (reached : Reachable (State.opened logs) pool) : Recorded service pool.state := by
  induction reached with
  | refl => exact recorded_opened logs
  | tail before step ih =>
      rcases permitted before step with same | ⟨_, _, _, performs, permits⟩
      · rw [same]
        exact ih
      · exact ih.step performs permits

end CyreneReactor.Diagnostics
