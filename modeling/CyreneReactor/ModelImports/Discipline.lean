import CyreneReactor.Interaction.Section
import CyreneReactor.ModelImports.Service

namespace CyreneReactor.ModelImports

open Interaction ImportService

/-! What a request about imports may do, and what of the tables and the journal
that keeps.
-/

namespace Event

/-- The import whose intent an event committed. -/
def admitted? : Event → Option ModelImport
  | ⟨_, .store (.commitModelImportIntent modelImport _ _ _ _ _), answer⟩ =>
      match (answer : Except Raised (Option Uuid)) with
      | .ok none => some modelImport
      | _ => none
  | _ => none

/-- A call of `import_model`. -/
def imports : Event → Bool
  | ⟨_, .importModel _ _, _⟩ => true
  | _ => false

end Event

/-- What the outcome of a binding makes of a pending import. -/
inductive Settles (pending : ModelImport) : ModelImport → Prop where
  | ready (result : ModelImportResult) (now : Datetime) :
      Settles pending (readyImport pending result now)
  | failed (failure : ServingEngineFailure) (now : Datetime) :
      Settles pending (failedImport pending (importFailed pending.id failure) now)

theorem Settles.id {pending settled : ModelImport} (settles : Settles pending settled) :
    settled.id = pending.id := by
  cases settles <;> rfl

theorem Settles.servingBindingId {pending settled : ModelImport}
    (settles : Settles pending settled) :
    settled.servingBindingId = pending.servingBindingId := by
  cases settles <;> rfl

theorem Settles.settled {pending settled : ModelImport} (settles : Settles pending settled) :
    settled.state ≠ .validating := by
  cases settles <;> exact fun same => by cases same

/-- The caller has committed the intent of this import. -/
def Admitted (caller : Caller Command) (pending : ModelImport) (journal : List Event) : Prop :=
  ∃ event ∈ journal, event.caller = caller ∧ event.admitted? = some pending

/-- Idle operations leave the tables and the import history alone. -/
def Op.idle : Op → Bool
  | .store (.commitModelImportIntent _ _ _ _ _ _) | .store (.saveModelImport _)
  | .importModel _ _ => false
  | _ => true

section Events

variable {caller : Caller Command} {pending : ModelImport} {journal : List Event} {event : Event}
  {op : Op} {answer : op.Answer}

theorem Op.idle_database (idle : op.idle = true) (database : ImportDatabase) :
    op.effect database = database := by
  cases op with
  | store op => cases op <;> first | rfl | cases idle
  | _ => rfl

theorem Op.idle_admitted (idle : op.idle = true) :
    (⟨caller, op, answer⟩ : Event).admitted? = none := by
  cases op with
  | store op => cases op <;> first | rfl | cases idle
  | _ => rfl

theorem Op.idle_imports (idle : op.idle = true) :
    (⟨caller, op, answer⟩ : Event).imports = false := by
  cases op with
  | importModel => cases idle
  | _ => rfl

theorem admitted?_commit {modelImport : ModelImport} {key : Option String}
    {digest idempotencyScope : String} {scope : Option WorkspaceScope} {grants : Grants}
    {outcome : Except Raised (Option Uuid)} :
    (Event.admitted? ⟨caller, .store (.commitModelImportIntent modelImport key digest
      idempotencyScope scope grants), outcome⟩ = some modelImport ↔ outcome = .ok none) ∧
    (Event.admitted? ⟨caller, .store (.commitModelImportIntent modelImport key digest
      idempotencyScope scope grants), outcome⟩ = none ↔ outcome ≠ .ok none) := by
  cases outcome with
  | error raised => simp [Event.admitted?]
  | ok replay => cases replay <;> simp [Event.admitted?]

theorem Admitted.append (admitted : Admitted caller pending journal) :
    Admitted caller pending (journal ++ [event]) := by
  obtain ⟨earlier, member, holds⟩ := admitted
  exact ⟨earlier, List.mem_append_left _ member, holds⟩

theorem mem_issued_append {id : Uuid} (drawn : id ∈ issued journal) :
    id ∈ issued (journal ++ [event]) := by
  simp only [issued, List.filterMap_append, List.mem_append] at drawn ⊢
  exact .inl drawn

end Events

variable (service : ImportService)

/-- When a caller may do what: everything names the caller's own scope, an intent
is committed once and under a new id, and the binding is called and the outcome
saved for an import of the caller's. -/
def Permits (caller : Caller Command) (state : State) : Op → Prop
  | .store (.resolveModelImportRequest key digest idempotencyScope) =>
      ∃ request scope, caller.command = .create request key scope ∧
        service.admission request scope = .ok () ∧ digest = service.digest request ∧
        idempotencyScope = service.modelImportIdempotencyScope scope
  | .store (.commitModelImportIntent modelImport key digest idempotencyScope scope grants) =>
      ∃ request now, caller.command = .create request key scope ∧
        service.admission request scope = .ok () ∧ digest = service.digest request ∧
        idempotencyScope = service.modelImportIdempotencyScope scope ∧
        grants = service.workspaceServingBindingGrants ∧
        modelImport = pendingImport request modelImport.id now ∧
        modelImport.id ∈ issued state.journal ∧
        (∀ old ∈ state.database.modelImports.rows, old.id ≠ modelImport.id) ∧
        ∀ event ∈ state.journal, event.caller = caller → event.admitted? = none
  | .store (.saveModelImport modelImport) =>
      ∃ pending, Admitted caller pending state.journal ∧
        pending ∈ state.database.modelImports.rows ∧ Settles pending modelImport
  | .store (.getUnscopedModelImport _) => caller.command.scope = none
  | .store (.getModelImportForWorkspace _ organizationId workspaceId) =>
      caller.command.scope = some ⟨organizationId, workspaceId⟩
  | .store .listModelImports => caller.command.scope = none
  | .store (.listModelImportsForWorkspace organizationId workspaceId) =>
      caller.command.scope = some ⟨organizationId, workspaceId⟩
  | .importModel _ _ =>
      (∃ pending, Admitted caller pending state.journal) ∧
        ∀ event ∈ state.journal, event.caller = caller → event.imports = false
  | .utcNow | .uuid4 | .activity _ => True

/-- What the tables hold of an admitted request. -/
structure Recorded (database : ImportDatabase) (request : CreateModelImportRequest)
    (key : Option String) (scope : Option WorkspaceScope) (pending : ModelImport) : Prop where
  requested : ∃ now, pending = pendingImport request pending.id now
  row : ∃ row ∈ database.modelImports.rows, row = pending ∨ Settles pending row
  owned : database.modelImportScope pending.id = scope
  keyed : ∀ used, key = some used →
    ⟨service.modelImportIdempotencyScope scope, used, service.digest request, pending.id⟩ ∈
      database.idempotency.rows

/-- The rows of the tables are those of the admitted requests. -/
structure TablesCoherent (database : ImportDatabase) (journal : List Event) : Prop where
  issued : ∀ row ∈ database.modelImports.rows, row.id ∈ issued journal
  named : ∀ row ∈ database.modelImportScopes.rows,
    ∃ owned ∈ database.modelImports.rows, owned.id = row.id
  granted : ∀ row ∈ database.modelImports.rows, ∀ scope,
    database.modelImportScope row.id = some scope →
      service.workspaceServingBindingGrants.admits row.servingBindingId scope = true
  recorded : ∀ {caller pending}, Admitted caller pending journal →
    ∃ request key scope, caller.command = .create request key scope ∧
      service.admission request scope = .ok () ∧
      Recorded service database request key scope pending
  admitted : ∀ row ∈ database.modelImports.rows, ∃ caller pending,
    Admitted caller pending journal ∧ (row = pending ∨ Settles pending row)
  keys : ∀ row ∈ database.idempotency.rows, ∃ caller pending request scope,
    Admitted caller pending journal ∧
      caller.command = .create request (some row.key) scope ∧
      row = ⟨service.modelImportIdempotencyScope scope, row.key, service.digest request,
        pending.id⟩

/-- Each admitted request has an id of its own and asked its binding at most once. -/
structure CallsCoherent (journal : List Event) : Prop where
  single : ∀ {first second left right}, Admitted first left journal →
    Admitted second right journal → left.id = right.id → first = second ∧ left = right
  called : ∀ event ∈ journal, event.imports = true →
    ∃ pending, Admitted event.caller pending journal
  once : journal.Pairwise fun earlier later =>
    earlier.imports = true → later.imports = true → earlier.caller ≠ later.caller

/-- The tables after the events of a journal. -/
def replayed (journal : List Event) : ImportDatabase :=
  journal.foldl (fun database event => event.op.effect database) .empty

theorem replayed_append (journal : List Event) (event : Event) :
    replayed (journal ++ [event]) = event.op.effect (replayed journal) := by
  simp [replayed, List.foldl_append]

structure Coherent (state : State) : Prop where
  tables : TablesCoherent service state.database state.journal
  calls : CallsCoherent state.journal
  replays : state.database = replayed state.journal

theorem coherent_initial : Coherent service .initial where
  tables :=
    { issued := fun _ member => by cases member
      named := fun _ member => by cases member
      granted := fun _ member => by cases member
      recorded := by
        rintro _ _ ⟨_, member, _⟩
        cases member
      admitted := fun _ member => by cases member
      keys := fun _ member => by cases member }
  calls :=
    { single := by
        rintro _ _ _ _ ⟨_, member, _⟩
        cases member
      called := fun _ member => by cases member
      once := .nil }
  replays := rfl

variable {service}

section Steps

variable {caller : Caller Command} {op : Op} {state next : State} {answer : op.Answer}
  {database : ImportDatabase} {journal : List Event} {event : Event}

theorem TablesCoherent.unscoped (coherent : TablesCoherent service database journal) {id : Uuid}
    (fresh : ∀ old ∈ database.modelImports.rows, old.id ≠ id) :
    ∀ old ∈ database.modelImportScopes.rows, old.id ≠ id := by
  intro old member same
  obtain ⟨owned, present, named⟩ := coherent.named old member
  exact fresh owned present (named.trans same)

theorem admitted_append {other : Caller Command} {pending : ModelImport} :
    Admitted other pending (journal ++ [event]) ↔
      Admitted other pending journal ∨ (event.caller = other ∧ event.admitted? = some pending) := by
  simp [Admitted, or_and_right, exists_or]

theorem admitted_append_other {other : Caller Command} {pending : ModelImport}
    (unadmitted : event.admitted? = none) :
    Admitted other pending (journal ++ [event]) ↔ Admitted other pending journal := by
  simp [admitted_append, unadmitted]

/-- Events that admit nothing leave the tables explained. -/
theorem TablesCoherent.append (coherent : TablesCoherent service database journal)
    (unadmitted : event.admitted? = none) :
    TablesCoherent service database (journal ++ [event]) where
  issued row member := mem_issued_append (coherent.issued row member)
  named := coherent.named
  granted := coherent.granted
  recorded admitted := coherent.recorded ((admitted_append_other unadmitted).mp admitted)
  admitted row member := by
    obtain ⟨other, pending, admitted, rest⟩ := coherent.admitted row member
    exact ⟨other, pending, admitted.append, rest⟩
  keys row member := by
    obtain ⟨other, pending, request, scope, admitted, rest⟩ := coherent.keys row member
    exact ⟨other, pending, request, scope, admitted.append, rest⟩

/-- An event that admits nothing, and calls a binding only for a caller that was
admitted and has not called it. -/
theorem CallsCoherent.append (coherent : CallsCoherent journal)
    (unadmitted : event.admitted? = none)
    (calling : event.imports = true → (∃ pending, Admitted event.caller pending journal) ∧
      ∀ earlier ∈ journal, earlier.caller = event.caller → earlier.imports = false) :
    CallsCoherent (journal ++ [event]) where
  single first second same :=
    coherent.single ((admitted_append_other unadmitted).mp first)
      ((admitted_append_other unadmitted).mp second) same
  called other member calls := by
    rcases List.mem_append.mp member with earlier | last
    · obtain ⟨pending, admitted⟩ := coherent.called other earlier calls
      exact ⟨pending, admitted.append⟩
    · rw [List.mem_singleton.mp last] at calls ⊢
      obtain ⟨⟨pending, admitted⟩, _⟩ := calling calls
      exact ⟨pending, admitted.append⟩
  once := by
    refine List.pairwise_append.mpr ⟨coherent.once, List.pairwise_singleton _ _, ?_⟩
    intro earlier member later last calls callsLater same
    rw [List.mem_singleton.mp last] at callsLater same
    rw [(calling callsLater).2 earlier member same] at calls
    cases calls

theorem Performs.replays (performs : Performs caller true op state answer next)
    (replays : state.database = replayed state.journal) :
    next.database = replayed next.journal := by
  have journal : next.journal = state.journal ++ [⟨caller, op, answer⟩] := performs.journal
  rw [performs.database, journal, replayed_append, replays]

/-- An idle operation adds nothing that coherence speaks of. -/
theorem Coherent.idle (coherent : Coherent service state)
    (performs : Performs caller true op state answer next) (idle : op.idle = true) :
    Coherent service next := by
  have journal : next.journal = state.journal ++ [⟨caller, op, answer⟩] := performs.journal
  refine ⟨?_, ?_, performs.replays coherent.replays⟩
  · rw [performs.database, Op.idle_database idle, journal]
    exact coherent.tables.append (Op.idle_admitted idle)
  · rw [journal]
    exact coherent.calls.append (Op.idle_admitted idle) fun calls => by
      rw [Op.idle_imports idle] at calls
      cases calls

/-- A call of the binding is made once by a caller that committed its intent. -/
theorem Coherent.importModel {engine : Engine} {request : CreateModelImportRequest}
    {answer : (Op.importModel engine request).Answer} (coherent : Coherent service state)
    (performs : Performs caller true (.importModel engine request) state answer next)
    (permits : Permits service caller state (.importModel engine request)) :
    Coherent service next := by
  have database : next.database = state.database := performs.database
  have journal : next.journal = state.journal ++ [⟨caller, .importModel engine request, answer⟩] :=
    performs.journal
  refine ⟨?_, ?_, performs.replays coherent.replays⟩
  · rw [database, journal]
    exact coherent.tables.append rfl
  · rw [journal]
    exact coherent.calls.append rfl fun _ => permits

/-- The saved outcome takes the place of the pending row. -/
theorem TablesCoherent.save (coherent : TablesCoherent service database journal)
    (calls : CallsCoherent journal) {pending modelImport : ModelImport}
    (own : Admitted caller pending journal) (present : pending ∈ database.modelImports.rows)
    (settles : Settles pending modelImport) :
    TablesCoherent service (database.saveModelImport modelImport) journal := by
  have rows : ∀ {row}, row ∈ (database.saveModelImport modelImport).modelImports.rows ↔
      (row ∈ database.modelImports.rows ∧ row.id ≠ pending.id) ∨ row = modelImport := by
    intro row
    simp [ImportDatabase.saveModelImport, Relational.Table.mem_insertOrReplace, ModelImport.clash,
      settles.id]
  constructor
  · intro row member
    rcases rows.mp member with ⟨old, _⟩ | rfl
    · exact coherent.issued row old
    · rw [settles.id]
      exact coherent.issued pending present
  · intro row member
    obtain ⟨owned, old, named⟩ := coherent.named row member
    by_cases replaced : owned.id = pending.id
    · exact ⟨modelImport, rows.mpr (.inr rfl), settles.id.trans (replaced.symm.trans named)⟩
    · exact ⟨owned, rows.mpr (.inl ⟨old, replaced⟩), named⟩
  · intro row member scope (owned : database.modelImportScope row.id = some scope)
    rcases rows.mp member with ⟨old, _⟩ | rfl
    · exact coherent.granted row old scope owned
    · rw [settles.id] at owned
      rw [settles.servingBindingId]
      exact coherent.granted pending present scope owned
  · intro other first admitted
    obtain ⟨request, key, scope, command, admission, recorded⟩ := coherent.recorded admitted
    refine ⟨request, key, scope, command, admission, recorded.requested, ?_, recorded.owned,
      recorded.keyed⟩
    obtain ⟨row, old, shape⟩ := recorded.row
    by_cases replaced : row.id = pending.id
    · have sameRow := ImportDatabase.eq_of_id old present replaced
      have sameId : first.id = pending.id := by
        rcases shape with equal | settled
        · rw [← equal, replaced]
        · rw [← settled.id, replaced]
      refine ⟨modelImport, rows.mpr (.inr rfl), .inr ?_⟩
      rw [(calls.single admitted own sameId).2]
      exact settles
    · exact ⟨row, rows.mpr (.inl ⟨old, replaced⟩), shape⟩
  · intro row member
    rcases rows.mp member with ⟨old, _⟩ | rfl
    · exact coherent.admitted row old
    · exact ⟨caller, pending, own, .inr settles⟩
  · exact coherent.keys

theorem Coherent.save {modelImport : ModelImport} (coherent : Coherent service state)
    {answer : (Op.store (.saveModelImport modelImport)).Answer}
    (performs : Performs caller true (.store (.saveModelImport modelImport)) state answer next)
    (permits : Permits service caller state (.store (.saveModelImport modelImport))) :
    Coherent service next := by
  have database : next.database = state.database.saveModelImport modelImport := performs.database
  have journal : next.journal =
    state.journal ++ [⟨caller, .store (.saveModelImport modelImport), answer⟩] := performs.journal
  obtain ⟨pending, own, present, settles⟩ := permits
  refine ⟨?_, ?_, performs.replays coherent.replays⟩
  · rw [database, journal]
    exact (coherent.tables.save coherent.calls own present settles).append rfl
  · rw [journal]
    exact coherent.calls.append rfl fun calls => by cases calls

theorem Recorded.row_id {request : CreateModelImportRequest} {key : Option String}
    {scope : Option WorkspaceScope} {pending : ModelImport}
    (recorded : Recorded service database request key scope pending) :
    ∃ row ∈ database.modelImports.rows, row.id = pending.id := by
  obtain ⟨row, member, shape⟩ := recorded.row
  refine ⟨row, member, ?_⟩
  rcases shape with equal | settles
  · rw [equal]
  · exact settles.id

/-- The rows of an admitted request are all there. -/
theorem TablesCoherent.admit (coherent : TablesCoherent service database journal)
    {request : CreateModelImportRequest} {key : Option String} {scope : Option WorkspaceScope}
    {modelImport : ModelImport} {after : ImportDatabase}
    (admits : database.AdmitsImport modelImport key (service.digest request)
      (service.modelImportIdempotencyScope scope) scope after)
    (command : event.caller.command = .create request key scope)
    (admission : service.admission request scope = .ok ())
    (requested : ∃ now, modelImport = pendingImport request modelImport.id now)
    (drawn : modelImport.id ∈ ModelImports.issued journal)
    (admitted : event.admitted? = some modelImport) :
    TablesCoherent service after (journal ++ [event]) := by
  have own : Admitted event.caller modelImport (journal ++ [event]) :=
    admitted_append.mpr (.inr ⟨rfl, admitted⟩)
  have scopeNew := admits.modelImportScope_new (coherent.unscoped admits.fresh)
  have rows : ∀ {row}, row ∈ after.modelImports.rows ↔
      row ∈ database.modelImports.rows ∨ row = modelImport := by
    intro row
    rw [admits.modelImports, List.mem_append, List.mem_singleton]
  have granted : ∀ owner, scope = some owner →
      service.workspaceServingBindingGrants.admits modelImport.servingBindingId owner = true := by
    rintro owner rfl
    obtain ⟨now, shape⟩ := requested
    rw [shape]
    unfold ImportService.admission at admission
    split at admission
    · cases admission
    · split at admission
      · cases admission
      · rename_i passes
        change service.workspaceServingBindingGrants.admits request.servingBindingId owner = true
        simpa using passes
  constructor
  · intro row member
    rcases rows.mp member with old | rfl
    · exact mem_issued_append (coherent.issued row old)
    · exact mem_issued_append drawn
  · intro row member
    rw [admits.modelImportScopes, List.mem_append] at member
    rcases member with old | new
    · obtain ⟨owned, present, named⟩ := coherent.named row old
      exact ⟨owned, rows.mpr (.inl present), named⟩
    · refine ⟨modelImport, rows.mpr (.inr rfl), ?_⟩
      simp only [Option.mem_toList, Option.map_eq_some_iff] at new
      obtain ⟨_, _, rfl⟩ := new
      rfl
  · intro row member owner owned
    rcases rows.mp member with old | rfl
    · rw [admits.modelImportScope_other (admits.fresh row old)] at owned
      exact coherent.granted row old owner owned
    · exact granted owner (scopeNew.symm.trans owned)
  · intro other pending holds
    rcases admitted_append.mp holds with earlier | ⟨rfl, same⟩
    · obtain ⟨asked, used, owner, commanded, passed, recorded⟩ := coherent.recorded earlier
      obtain ⟨row, present, shape⟩ := recorded.row
      obtain ⟨named, presentNamed, sameId⟩ := recorded.row_id
      refine ⟨asked, used, owner, commanded, passed, recorded.requested,
        ⟨row, rows.mpr (.inl present), shape⟩, ?_, ?_⟩
      · rw [admits.modelImportScope_other (sameId ▸ admits.fresh named presentNamed)]
        exact recorded.owned
      · intro key' keyed
        rw [admits.idempotency, List.mem_append]
        exact .inl (recorded.keyed key' keyed)
    · rw [admitted, Option.some.injEq] at same
      subst same
      refine ⟨request, key, scope, command, admission, requested,
        ⟨modelImport, rows.mpr (.inr rfl), .inl rfl⟩, scopeNew, ?_⟩
      rintro used rfl
      rw [admits.idempotency]
      simp
  · intro row member
    rcases rows.mp member with old | rfl
    · obtain ⟨other, pending, earlier, rest⟩ := coherent.admitted row old
      exact ⟨other, pending, earlier.append, rest⟩
    · exact ⟨event.caller, row, own, .inl rfl⟩
  · intro row member
    rw [admits.idempotency, List.mem_append] at member
    rcases member with old | new
    · obtain ⟨other, pending, asked, owner, earlier, rest⟩ := coherent.keys row old
      exact ⟨other, pending, asked, owner, earlier.append, rest⟩
    · simp only [Option.mem_toList, Option.map_eq_some_iff] at new
      obtain ⟨used, rfl, rfl⟩ := new
      exact ⟨event.caller, modelImport, request, scope, own, command, rfl⟩

/-- An admitted request has a new id. -/
theorem CallsCoherent.admit (coherent : CallsCoherent journal)
    (tables : TablesCoherent service database journal) {modelImport : ModelImport}
    (fresh : ∀ old ∈ database.modelImports.rows, old.id ≠ modelImport.id)
    (admitted : event.admitted? = some modelImport) (uncalled : event.imports = false) :
    CallsCoherent (journal ++ [event]) := by
  have new : ∀ {other pending}, Admitted other pending journal → pending.id ≠ modelImport.id := by
    intro other pending earlier
    obtain ⟨_, _, _, _, _, recorded⟩ := tables.recorded earlier
    obtain ⟨row, present, same⟩ := recorded.row_id
    exact same ▸ fresh row present
  constructor
  · intro first second left right holdsFirst holdsSecond same
    rcases admitted_append.mp holdsFirst with earlierFirst | ⟨rfl, lastFirst⟩
    · rcases admitted_append.mp holdsSecond with earlierSecond | ⟨rfl, lastSecond⟩
      · exact coherent.single earlierFirst earlierSecond same
      · rw [admitted, Option.some.injEq] at lastSecond
        exact absurd (lastSecond ▸ same) (new earlierFirst)
    · rw [admitted, Option.some.injEq] at lastFirst
      subst lastFirst
      rcases admitted_append.mp holdsSecond with earlierSecond | ⟨rfl, lastSecond⟩
      · exact absurd same.symm (new earlierSecond)
      · rw [admitted, Option.some.injEq] at lastSecond
        exact ⟨rfl, lastSecond⟩
  · intro other member calls
    rcases List.mem_append.mp member with earlier | last
    · obtain ⟨pending, holds⟩ := coherent.called other earlier calls
      exact ⟨pending, holds.append⟩
    · rw [List.mem_singleton.mp last, uncalled] at calls
      cases calls
  · refine List.pairwise_append.mpr ⟨coherent.once, List.pairwise_singleton _ _, ?_⟩
    intro earlier _ later last _ calls
    rw [List.mem_singleton.mp last, uncalled] at calls
    cases calls

theorem Coherent.commit {modelImport : ModelImport} {key : Option String}
    {digest idempotencyScope : String} {scope : Option WorkspaceScope} {grants : Grants}
    {answer : (Op.store (.commitModelImportIntent modelImport key digest idempotencyScope scope
      grants)).Answer}
    (coherent : Coherent service state)
    (performs : Performs caller true (.store (.commitModelImportIntent modelImport key digest
      idempotencyScope scope grants)) state answer next)
    (permits : Permits service caller state (.store (.commitModelImportIntent modelImport key digest
      idempotencyScope scope grants))) :
    Coherent service next := by
  have database : next.database = (state.database.commitModelImportIntent modelImport key digest
    idempotencyScope scope grants).2 := performs.database
  have answers : answer = (state.database.commitModelImportIntent modelImport key digest
    idempotencyScope scope grants).1 := performs.answers
  have journal := performs.journal
  simp only [if_true] at journal
  obtain ⟨request, now, command, admission, rfl, rfl, rfl, requested, drawn, fresh, _⟩ := permits
  rcases state.database.commitModelImportIntent_spec modelImport key (service.digest request)
    (service.modelImportIdempotencyScope scope) scope service.workspaceServingBindingGrants with
    ⟨refused, same⟩ | ⟨accepted, admits⟩
  · have unadmitted : Event.admitted? ⟨caller, .store (.commitModelImportIntent modelImport key
        (service.digest request) (service.modelImportIdempotencyScope scope) scope
        service.workspaceServingBindingGrants), answer⟩ = none :=
      admitted?_commit.2.mpr fun ok => refused (answers.symm.trans ok)
    refine ⟨?_, ?_, performs.replays coherent.replays⟩
    · rw [database, same, journal]
      exact coherent.tables.append unadmitted
    · rw [journal]
      exact coherent.calls.append unadmitted fun calls => by cases calls
  · have admitted : Event.admitted? ⟨caller, .store (.commitModelImportIntent modelImport key
        (service.digest request) (service.modelImportIdempotencyScope scope) scope
        service.workspaceServingBindingGrants), answer⟩ = some modelImport :=
      admitted?_commit.1.mpr (answers.trans accepted)
    refine ⟨?_, ?_, performs.replays coherent.replays⟩
    · rw [database, journal]
      exact coherent.tables.admit admits command admission ⟨now, requested⟩ drawn admitted
    · rw [journal]
      exact coherent.calls.admit coherent.tables fresh admitted rfl

theorem Coherent.step (coherent : Coherent service state)
    (performs : Performs caller true op state answer next)
    (permits : Permits service caller state op) : Coherent service next := by
  cases op with
  | store op =>
      cases op with
      | commitModelImportIntent => exact coherent.commit performs permits
      | saveModelImport => exact coherent.save performs permits
      | resolveModelImportRequest | getUnscopedModelImport | getModelImportForWorkspace
      | listModelImports | listModelImportsForWorkspace => exact coherent.idle performs rfl
  | importModel => exact coherent.importModel performs permits
  | utcNow | uuid4 | activity => exact coherent.idle performs rfl

end Steps

/-- An import stays as it is, or settles once. -/
def Moves (row after : ModelImport) : Prop :=
  after = row ∨ (row.state = .validating ∧ Settles row after)

theorem Moves.id {row after : ModelImport} (moves : Moves row after) : after.id = row.id := by
  rcases moves with rfl | ⟨_, settles⟩
  · rfl
  · exact settles.id

theorem Moves.trans {row middle after : ModelImport} (first : Moves row middle)
    (second : Moves middle after) : Moves row after := by
  rcases first with rfl | ⟨validating, settles⟩
  · exact second
  · rcases second with rfl | ⟨again, _⟩
    · exact .inr ⟨validating, settles⟩
    · exact absurd again settles.settled

/-- What a later database keeps of an earlier one. -/
structure Keeps (first last : ImportDatabase) : Prop where
  imports : ∀ row ∈ first.modelImports.rows, ∃ after ∈ last.modelImports.rows, Moves row after
  owners : ∀ row ∈ first.modelImports.rows,
    last.modelImportScope row.id = first.modelImportScope row.id
  keys : ∀ row ∈ first.idempotency.rows, row ∈ last.idempotency.rows

theorem Keeps.refl (database : ImportDatabase) : Keeps database database :=
  ⟨fun row member => ⟨row, member, .inl rfl⟩, fun _ _ => rfl, fun _ member => member⟩

theorem Keeps.trans {first middle last : ImportDatabase} (left : Keeps first middle)
    (right : Keeps middle last) : Keeps first last := by
  refine ⟨?_, ?_, fun row member => right.keys row (left.keys row member)⟩
  · intro row member
    obtain ⟨between, present, moves⟩ := left.imports row member
    obtain ⟨after, last, rest⟩ := right.imports between present
    exact ⟨after, last, moves.trans rest⟩
  · intro row member
    obtain ⟨between, present, moves⟩ := left.imports row member
    have owner := right.owners between present
    rw [moves.id] at owner
    exact owner.trans (left.owners row member)

section Steps

variable {caller : Caller Command} {op : Op} {state next : State} {answer : op.Answer}

theorem Coherent.keeps_save {modelImport : ModelImport} (coherent : Coherent service state)
    (permits : Permits service caller state (.store (.saveModelImport modelImport))) :
    Keeps state.database (state.database.saveModelImport modelImport) := by
  obtain ⟨pending, own, present, settles⟩ := permits
  refine ⟨?_, fun _ _ => rfl, fun _ member => member⟩
  intro row member
  by_cases replaced : row.id = pending.id
  · obtain ⟨_, _, _, _, _, recorded⟩ := coherent.tables.recorded own
    obtain ⟨now, requested⟩ := recorded.requested
    rw [ImportDatabase.eq_of_id member present replaced]
    refine ⟨modelImport, Relational.Table.mem_insertOrReplace.mpr (.inr rfl), .inr ⟨?_, settles⟩⟩
    rw [requested]
    rfl
  · refine ⟨row, Relational.Table.mem_insertOrReplace.mpr (.inl ⟨member, ?_⟩), .inl rfl⟩
    simpa [ModelImport.clash, settles.id] using replaced

/-- What one permitted step keeps. -/
theorem Coherent.keeps (coherent : Coherent service state)
    (performs : Performs caller true op state answer next)
    (permits : Permits service caller state op) : Keeps state.database next.database := by
  rw [performs.database]
  by_cases idle : op.idle = true
  · rw [Op.idle_database idle]
    exact .refl _
  · cases op with
    | store op =>
        cases op with
        | commitModelImportIntent modelImport key digest idempotencyScope scope grants =>
            rcases state.database.commitModelImportIntent_spec modelImport key digest
              idempotencyScope scope grants with ⟨_, same⟩ | ⟨_, admits⟩
            · change Keeps _ (state.database.commitModelImportIntent modelImport key digest
                idempotencyScope scope grants).2
              rw [same]
              exact .refl _
            · refine ⟨?_, ?_, ?_⟩
              · intro row member
                exact ⟨row, admits.modelImports ▸ List.mem_append_left _ member, .inl rfl⟩
              · intro row member
                exact admits.modelImportScope_other (admits.fresh row member)
              · intro row member
                exact admits.idempotency ▸ List.mem_append_left _ member
        | saveModelImport modelImport => exact coherent.keeps_save permits
        | resolveModelImportRequest | getUnscopedModelImport | getModelImportForWorkspace
        | listModelImports | listModelImportsForWorkspace => exact absurd rfl idle
    | importModel => exact .refl _
    | utcNow | uuid4 | activity => exact absurd rfl idle

end Steps

end CyreneReactor.ModelImports
