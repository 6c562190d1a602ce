import CyreneReactor.ModelImports.Script
import CyreneReactor.ModelImports.Verified

namespace CyreneReactor.ModelImports

open Interaction ImportService

/-! Admission of imports: the rows of a request appear together or not at all, its
binding is asked at most once, and a refused request leaves no trace.
-/

/-- No event of the caller changed a table or asked a binding. -/
def Untouching (caller : Caller Command) (journal : List Event) : Prop :=
  ∀ earlier event later, journal = earlier ++ event :: later → event.caller = caller →
    event.op.effect (replayed earlier) = replayed earlier ∧ event.imports = false

/-- Whoever changes a table or asks a binding has committed an intent. -/
def Traced (journal : List Event) : Prop :=
  ∀ caller, (∀ pending, ¬ Admitted caller pending journal) → Untouching caller journal

theorem untouching_append {caller : Caller Command} {journal : List Event} {event : Event}
    (before : Untouching caller journal)
    (last : event.caller = caller →
      event.op.effect (replayed journal) = replayed journal ∧ event.imports = false) :
    Untouching caller (journal ++ [event]) := by
  intro earlier found later split own
  rcases List.eq_nil_or_concat later with rfl | ⟨rest, final, rfl⟩
  · obtain ⟨rfl, same⟩ := List.append_inj' split rfl
    cases same
    exact last own
  · rw [List.concat_eq_append, ← List.cons_append, ← List.append_assoc] at split
    obtain ⟨rfl, _⟩ := List.append_inj' split rfl
    exact before earlier found rest rfl own

section Traces

variable {service : ImportService} {caller : Caller Command} {op : Op} {state next : State}
  {answer : op.Answer}

/-- A permitted operation that leaves its caller without an intent does nothing. -/
theorem Permits.untouching (performs : Performs caller true op state answer next)
    (permits : Permits service caller state op)
    (unadmitted : ∀ pending, ¬ Admitted caller pending (state.journal ++ [⟨caller, op, answer⟩])) :
    op.effect state.database = state.database ∧
      (⟨caller, op, answer⟩ : Event).imports = false := by
  by_cases idle : op.idle = true
  · exact ⟨Op.idle_database idle _, Op.idle_imports idle⟩
  · cases op with
    | store op =>
        cases op with
        | commitModelImportIntent modelImport key digest idempotencyScope scope grants =>
            rcases state.database.commitModelImportIntent_spec modelImport key digest
              idempotencyScope scope grants with ⟨_, same⟩ | ⟨accepted, _⟩
            · exact ⟨same, rfl⟩
            · have answered : answer = .ok none := performs.answers.trans accepted
              subst answered
              exact absurd (admitted_append.mpr (.inr ⟨rfl, rfl⟩)) (unadmitted modelImport)
        | saveModelImport modelImport =>
            obtain ⟨pending, own, _⟩ := permits
            exact absurd own.append (unadmitted pending)
        | resolveModelImportRequest | getUnscopedModelImport | getModelImportForWorkspace
        | listModelImports | listModelImportsForWorkspace => exact absurd rfl idle
    | importModel engine request =>
        obtain ⟨⟨pending, own⟩, _⟩ := permits
        exact absurd own.append (unadmitted pending)
    | utcNow | uuid4 | activity => exact absurd rfl idle

/-- Every change of a table is traced to an intent. -/
theorem traced_of_reached {pool : Pool service.system}
    (injective : Function.Injective service.modelImportIdempotencyScope)
    (reached : Reached service pool) : Traced (State.journal pool.state) := by
  induction reached with
  | refl =>
      intro _ _ earlier event later split
      have empty : [] = earlier ++ event :: later := split
      simp at empty
  | tail before step ih =>
      have replays := (Reached.coherent injective before).replays
      rcases Reached.permitted injective before step with
        same | ⟨caller, op, answer, performs, permits⟩
      · rw [same]
        exact ih
      · have journal := performs.journal
        simp only [if_true] at journal
        rw [journal]
        intro other unadmitted
        refine untouching_append (ih other fun pending admitted =>
          unadmitted pending admitted.append) fun own => ?_
        subst own
        rw [← replays]
        exact permits.untouching performs unadmitted

end Traces

/-- A request asked its binding for the key of a scope. -/
def Event.asks (scope : Option WorkspaceScope) (key : String) (event : Event) : Prop :=
  event.imports = true ∧ ∃ request, event.caller.command = .create request (some key) scope

/-- What holds of imports in every state of every run: which rows there are, how
often a binding is asked, that refused requests add nothing to the journal whose
work the tables are, and what the requests that are over answered when they gave
their lock back. -/
structure ImportsAdmitted (service : ImportService) (pool : Pool service.system) : Prop where
  granted : ∀ row ∈ (State.database pool.state).modelImports.rows, ∀ scope,
    (State.database pool.state).modelImportScope row.id = some scope →
      service.workspaceServingBindingGrants.admits row.servingBindingId scope = true
  recorded : ∀ caller pending, Admitted caller pending (State.journal pool.state) →
    ∃ request key scope, caller.command = .create request key scope ∧
      service.admission request scope = .ok () ∧
      Recorded service (State.database pool.state) request key scope pending
  imports : ∀ row ∈ (State.database pool.state).modelImports.rows, ∃ caller pending,
    Admitted caller pending (State.journal pool.state) ∧ (row = pending ∨ Settles pending row)
  scopes : ∀ row ∈ (State.database pool.state).modelImportScopes.rows,
    ∃ owned ∈ (State.database pool.state).modelImports.rows, owned.id = row.id
  keys : ∀ row ∈ (State.database pool.state).idempotency.rows,
    ∃ owned ∈ (State.database pool.state).modelImports.rows, owned.id = row.resourceId
  once : ∀ scope key, (State.journal pool.state).Pairwise fun earlier later =>
    ¬ (earlier.asks scope key ∧ later.asks scope key)
  database : State.database pool.state = replayed (State.journal pool.state)
  refused : ∀ (caller : Caller Command) request key scope,
    caller.command = .create request key scope → service.admission request scope ≠ .ok () →
    Untouching caller (State.journal pool.state)
  conflicting : ∀ (first second : Caller Command) request other key scope,
    first.command = .create request (some key) scope →
    second.command = .create other (some key) scope → request ≠ other →
    (∃ pending, Admitted first pending (State.journal pool.state)) →
    Untouching second (State.journal pool.state)
  keeps : ∀ next, Relation.ReflTransGen Step pool next →
    Keeps (State.database pool.state) (State.database next.state)
  answered : ∀ index request key scope depth result,
    pool.threads[index]? = some ⟨.create request key scope, depth, .pure result⟩ →
    ∃ earlier later outcome, State.journal pool.state = earlier ++ later ∧
      result = outcome.map (fun modelImport => [modelImport]) ∧
      Answered service ⟨index, .create request key scope⟩ request key scope outcome
        ⟨replayed earlier, earlier⟩

section Admitted

variable {service : ImportService} {state : State}

/-- Two requests that used the same key of a scope are one request. -/
theorem Coherent.sole (coherent : Coherent service state) {first second : Caller Command}
    {left right : ModelImport} {request other : CreateModelImportRequest} {key : String}
    {scope : Option WorkspaceScope} (admittedFirst : Admitted first left state.journal)
    (admittedSecond : Admitted second right state.journal)
    (commandFirst : first.command = .create request (some key) scope)
    (commandSecond : second.command = .create other (some key) scope) :
    first = second := by
  obtain ⟨asked, used, owner, command, _, recordedFirst⟩ := coherent.tables.recorded admittedFirst
  obtain ⟨asked', used', owner', command', _, recordedSecond⟩ :=
    coherent.tables.recorded admittedSecond
  rw [commandFirst, Command.create.injEq] at command
  rw [commandSecond, Command.create.injEq] at command'
  obtain ⟨rfl, rfl, rfl⟩ := command
  obtain ⟨rfl, rfl, rfl⟩ := command'
  have foundFirst := ImportDatabase.findImportKey_of_mem (recordedFirst.keyed key rfl)
  have foundSecond := ImportDatabase.findImportKey_of_mem (recordedSecond.keyed key rfl)
  have same := foundFirst.symm.trans foundSecond
  simp only [Option.some.injEq, IdempotencyRow.mk.injEq] at same
  exact (coherent.calls.single admittedFirst admittedSecond same.2.2.2).1

theorem Coherent.keyed (coherent : Coherent service state) {row : IdempotencyRow}
    (member : row ∈ state.database.idempotency.rows) :
    ∃ owned ∈ state.database.modelImports.rows, owned.id = row.resourceId := by
  obtain ⟨_, pending, _, _, admitted, _, shape⟩ := coherent.tables.keys row member
  obtain ⟨_, _, _, _, _, recorded⟩ := coherent.tables.recorded admitted
  obtain ⟨owned, present, same⟩ := recorded.row_id
  exact ⟨owned, present, by rw [same, shape]⟩

end Admitted

/-- Admission and atomicity of imports, for every run of every service. -/
theorem imports_admitted (service : ImportService)
    (injective : Function.Injective service.sha256) {pool : Pool service.system}
    (reached : Reached service pool) : ImportsAdmitted service pool := by
  have scopes := modelImportIdempotencyScope_injective injective
  have coherent := reached.coherent scopes
  have traced := traced_of_reached scopes reached
  have sound := reached.sound scopes
  constructor
  · exact coherent.tables.granted
  · exact fun caller pending => coherent.tables.recorded
  · exact coherent.tables.admitted
  · exact coherent.tables.named
  · exact fun row => coherent.keyed
  · intro scope key
    refine coherent.calls.once.imp_of_mem fun {earlier later} first second apart => ?_
    rintro ⟨⟨callsFirst, request, commandFirst⟩, callsSecond, other, commandSecond⟩
    obtain ⟨left, admittedFirst⟩ := coherent.calls.called earlier first callsFirst
    obtain ⟨right, admittedSecond⟩ := coherent.calls.called later second callsSecond
    exact apart callsFirst callsSecond
      (coherent.sole admittedFirst admittedSecond commandFirst commandSecond)
  · exact coherent.replays
  · intro caller request key scope command refused
    refine traced caller fun pending admitted => ?_
    obtain ⟨asked, used, owner, commanded, passed, _⟩ := coherent.tables.recorded admitted
    rw [command, Command.create.injEq] at commanded
    obtain ⟨rfl, _, rfl⟩ := commanded
    exact refused passed
  · rintro first second request other key scope commandFirst commandSecond different
      ⟨left, admittedFirst⟩
    refine traced second fun right admittedSecond => different ?_
    have same := coherent.sole admittedFirst admittedSecond commandFirst commandSecond
    rw [same, commandSecond, Command.create.injEq] at commandFirst
    exact commandFirst.1.symm
  · exact fun next => reached.keeps scopes
  · intro index request key scope depth result found
    obtain ⟨since, relied, _, finished⟩ := sound.verified found
    obtain ⟨later, extended⟩ := extends_of_rely relied
    have finished : Finished service ⟨index, .create request key scope⟩ result since := finished
    obtain ⟨outcome, shape, answered⟩ := finished request key scope rfl
    refine ⟨State.journal since, later, outcome, extended, shape, ?_⟩
    have replays := answered.coherent.replays
    rw [← replays]
    exact answered

/-- A scoped request and its repetition. -/
theorem imports_admitted_repeatedly :
    ImportsAdmitted Sample.importService
      (Sample.importService.play (.ok Sample.result) Sample.repeatedly) :=
  imports_admitted Sample.importService Sample.sha256_injective
    (Sample.importService.play_reached (.ok Sample.result) Sample.repeatedly)

example : (Sample.importService.play (.ok Sample.result) Sample.repeatedly).threads.map
    (fun thread => match thread.program with
      | .pure (.ok imports) => imports.map fun row => (row.id, row.state)
      | _ => []) = [[(⟨0⟩, .ready)], [(⟨0⟩, .ready)]] := by
  decide +kernel

end CyreneReactor.ModelImports
