import CyreneReactor.Interaction.Noninterference
import CyreneReactor.ModelImports.Script
import CyreneReactor.ModelImports.Verified

namespace CyreneReactor.ModelImports

open Interaction ImportService

/-! Isolation of imports: what a workspace sees depends on its own requests only.

The tenants are the scopes; callers of the unscoped API are one more.
-/

/-- What the world outside the store gives to a call. -/
inductive Given where
  | time (now : Datetime)
  | id (id : Uuid)
  | imported (outcome : Except Raised ModelImportResult)
  | told (outcome : Except Raised Unit)
  | computed

def given : (op : Op) → op.Answer → Given
  | .utcNow, now => .time now
  | .uuid4, id => .id id
  | .importModel _ _, outcome => .imported outcome
  | .activity _, outcome => .told outcome
  | .store _, _ => .computed

def tenancy (service : ImportService) :
    Tenancy service.system (Option WorkspaceScope) Given where
  tenant := Command.scope
  given := given

/-- What the store holds for a scope: its imports in list order, and its keys. -/
def view (service : ImportService) (scope : Option WorkspaceScope) (state : State) :
    List ModelImport × List IdempotencyRow :=
  (state.database.importsOf scope,
    state.database.idempotency.rows.filter fun row =>
      row.scope == service.modelImportIdempotencyScope scope)

section View

variable {service : ImportService} {scope : Option WorkspaceScope} {left right : State}

theorem importsOf_of_view (same : view service scope left = view service scope right) :
    left.database.importsOf scope = right.database.importsOf scope :=
  (Prod.ext_iff.mp same).1

/-- What a scope reads of its imports and keys is in its view. -/
theorem getFrom_of_view (same : view service scope left = view service scope right) (id : Uuid) :
    left.database.getFrom scope id = right.database.getFrom scope id := by
  rw [ImportDatabase.getFrom_eq, ImportDatabase.getFrom_eq, importsOf_of_view same]

theorem listFrom_of_view (same : view service scope left = view service scope right) :
    left.database.listFrom scope = right.database.listFrom scope := by
  rw [ImportDatabase.listFrom_eq, ImportDatabase.listFrom_eq, importsOf_of_view same]

theorem findImportKey_of_view (same : view service scope left = view service scope right)
    (key : String) :
    left.database.findImportKey (service.modelImportIdempotencyScope scope) key =
      right.database.findImportKey (service.modelImportIdempotencyScope scope) key := by
  have filtered : ∀ state : State,
      state.database.findImportKey (service.modelImportIdempotencyScope scope) key =
        (view service scope state).2.find? fun row => row.key == key := by
    intro state
    simp only [ImportDatabase.findImportKey, Relational.Table.find?, view, List.find?_filter,
      Bool.decide_and, Bool.decide_eq_true]
  rw [filtered, filtered, same]

theorem resolve_of_view (same : view service scope left = view service scope right)
    (key : Option String) (digest : String) :
    left.database.resolveModelImportRequest key digest
        (service.modelImportIdempotencyScope scope) =
      right.database.resolveModelImportRequest key digest
        (service.modelImportIdempotencyScope scope) := by
  cases key with
  | none => rfl
  | some used => simp only [ImportDatabase.resolveModelImportRequest, findImportKey_of_view same]

end View

section Steps

variable {service : ImportService} {scope : Option WorkspaceScope} {caller : Caller Command}
  {op : Op} {state next : State} {answer : op.Answer}

/-- An admitted import adds one import and one key to what its scope sees. -/
theorem view_of_admits {modelImport : ModelImport} {key : Option String} {digest : String}
    {owner : Option WorkspaceScope} {after : State} (coherent : Coherent service state)
    (injective : Function.Injective service.modelImportIdempotencyScope)
    (admits : state.database.AdmitsImport modelImport key digest
      (service.modelImportIdempotencyScope owner) owner after.database) :
    view service scope after =
      if scope = owner then
        ((view service scope state).1 ++ [modelImport],
          (view service scope state).2 ++ (key.map fun used =>
            ⟨service.modelImportIdempotencyScope owner, used, digest, modelImport.id⟩).toList)
      else view service scope state := by
  have imports := admits.importsOf (coherent.tables.unscoped admits.fresh) scope
  have keys : after.database.idempotency.rows = _ := admits.idempotency
  by_cases own : scope = owner
  · subst own
    rw [if_pos rfl] at imports ⊢
    refine Prod.ext imports ?_
    simp only [view, keys, List.filter_append]
    congr 1
    cases key <;> simp
  · rw [if_neg own, List.append_nil] at imports
    rw [if_neg own]
    refine Prod.ext imports ?_
    have apart : service.modelImportIdempotencyScope owner ≠
        service.modelImportIdempotencyScope scope := fun same => own (injective same).symm
    simp only [view, keys, List.filter_append]
    cases key <;> simp [apart]

/-- What a permitted save makes of a view. -/
theorem view_of_save {modelImport : ModelImport}
    (owned : state.database.modelImportScope modelImport.id = caller.command.scope)
    (next : State) (saved : next.database = state.database.saveModelImport modelImport) :
    view service scope next =
      if scope = caller.command.scope then
        ((view service scope state).1.filter (fun old => !ModelImport.clash old modelImport) ++
          [modelImport], (view service scope state).2)
      else view service scope state := by
  by_cases own : scope = caller.command.scope
  · rw [if_pos own]
    refine Prod.ext ?_ ?_
    · have imports : (state.database.saveModelImport modelImport).importsOf scope = _ :=
        ImportDatabase.importsOf_save modelImport scope
      rw [if_pos (owned.trans own.symm)] at imports
      simp only [view, saved]
      exact imports
    · simp only [view, saved]
      rfl
  · rw [if_neg own]
    refine Prod.ext ?_ ?_
    · simp only [view, saved]
      exact ImportDatabase.importsOf_save_other fun same => own (same.symm.trans owned)
    · simp only [view, saved]
      rfl

theorem view_of_idle (performs : Performs caller true op state answer next)
    (idle : op.idle = true) : view service scope next = view service scope state := by
  simp only [view, performs.idle_database idle]

theorem save_owned {modelImport : ModelImport} (coherent : Coherent service state)
    (permits : Permits service caller state (.store (.saveModelImport modelImport))) :
    state.database.modelImportScope modelImport.id = caller.command.scope := by
  obtain ⟨pending, admitted, _, settles⟩ := permits
  obtain ⟨request, key, owner, command, _, recorded⟩ := coherent.tables.recorded admitted
  rw [settles.id, recorded.owned, command]
  rfl

/-- A permitted step of another scope does not show. -/
theorem confined (coherent : Coherent service state)
    (injective : Function.Injective service.modelImportIdempotencyScope)
    (performs : Performs caller true op state answer next)
    (permits : Permits service caller state op) (other : caller.command.scope ≠ scope) :
    view service scope next = view service scope state := by
  by_cases idle : op.idle = true
  · exact view_of_idle performs idle
  · cases op with
    | store op =>
        cases op with
        | commitModelImportIntent modelImport key digest idempotencyScope owner grants =>
            obtain ⟨request, now, command, _, rfl, rfl, _⟩ := permits
            have database : next.database = (state.database.commitModelImportIntent modelImport key
              _ _ owner grants).2 := performs.database
            rcases state.database.commitModelImportIntent_spec modelImport key
              (service.digest request) (service.modelImportIdempotencyScope owner) owner grants with
              ⟨_, same⟩ | ⟨_, admits⟩
            · simp only [view, database, same]
            · rw [← database] at admits
              rw [view_of_admits coherent injective admits, if_neg]
              rw [command] at other
              exact Ne.symm other
        | saveModelImport modelImport =>
            rw [view_of_save (save_owned coherent permits) next performs.database,
              if_neg (Ne.symm other)]
        | resolveModelImportRequest | getUnscopedModelImport | getModelImportForWorkspace
        | listModelImports | listModelImportsForWorkspace => exact absurd rfl idle
    | importModel =>
        have database : next.database = state.database := performs.database
        simp only [view, database]
    | utcNow | uuid4 | activity => exact absurd rfl idle

end Steps

section Determined

variable {service : ImportService} {scope : Option WorkspaceScope} {first second : Caller Command}
  {op : Op} {left right leftNext rightNext : State} {leftAnswer rightAnswer : op.Answer}

/-- The commit of a coherent state is decided by the keys its scope sees. -/
theorem commit_decided {modelImport : ModelImport} (key : Option String)
    {request : CreateModelImportRequest} {state : State} (coherent : Coherent service state)
    (injective : Function.Injective service.modelImportIdempotencyScope)
    (requested : ∃ now, modelImport = pendingImport request modelImport.id now)
    (admission : service.admission request scope = .ok ())
    (fresh : ∀ old ∈ state.database.modelImports.rows, old.id ≠ modelImport.id) :
    (state.database.commitModelImportIntent modelImport key (service.digest request)
      (service.modelImportIdempotencyScope scope) scope service.workspaceServingBindingGrants).1 =
    state.database.resolveModelImportRequest key (service.digest request)
      (service.modelImportIdempotencyScope scope) := by
  have granted : (scope.any fun owner => !service.workspaceServingBindingGrants.admits
      modelImport.servingBindingId owner) = false := by
    obtain ⟨now, shape⟩ := requested
    rw [shape]
    exact admission_granted admission
  cases resolved : state.database.resolveModelImportRequest key (service.digest request)
      (service.modelImportIdempotencyScope scope) with
  | error raised =>
      simp [ImportDatabase.commitModelImportIntent, granted, resolved]
  | ok replay =>
      cases replay with
      | none =>
          exact ImportDatabase.commitModelImportIntent_admits granted fresh
            (coherent.tables.unscoped fresh) (ImportDatabase.resolve_none_iff.mp resolved)
      | some original =>
          obtain ⟨used, row, _, found, _, names⟩ := ImportDatabase.resolve_some resolved
          obtain ⟨current, _, sameId, owned⟩ := findImportKey_recorded coherent injective found
          rw [sameId, names] at owned
          simp [ImportDatabase.commitModelImportIntent, granted, resolved, owned]

/-- A step of the scope is determined by its view and by what it is given. -/
theorem determined (coherentLeft : Coherent service left) (coherentRight : Coherent service right)
    (injective : Function.Injective service.modelImportIdempotencyScope)
    (performsLeft : Performs first true op left leftAnswer leftNext)
    (performsRight : Performs second true op right rightAnswer rightNext)
    (permitsLeft : Permits service first left op) (permitsRight : Permits service second right op)
    (own : first.command.scope = scope) (commands : first.command = second.command)
    (views : view service scope left = view service scope right)
    (givens : given op leftAnswer = given op rightAnswer) :
    leftAnswer = rightAnswer ∧ view service scope leftNext = view service scope rightNext := by
  have ownRight : second.command.scope = scope := commands ▸ own
  have unchanged : op.idle = true →
      view service scope leftNext = view service scope rightNext := fun idle => by
    rw [view_of_idle performsLeft idle, view_of_idle performsRight idle, views]
  cases op with
  | utcNow =>
      exact ⟨Given.time.inj givens, unchanged rfl⟩
  | uuid4 =>
      exact ⟨Given.id.inj givens, unchanged rfl⟩
  | activity call =>
      exact ⟨Given.told.inj givens, unchanged rfl⟩
  | importModel engine request =>
      refine ⟨Given.imported.inj givens, ?_⟩
      have databaseLeft : leftNext.database = left.database := performsLeft.database
      have databaseRight : rightNext.database = right.database := performsRight.database
      simp only [view, databaseLeft, databaseRight] at views ⊢
      exact views
  | store op =>
      have answersLeft : leftAnswer = (op.run left.database).1 := performsLeft.answers
      have answersRight : rightAnswer = (op.run right.database).1 := performsRight.answers
      suffices sameAnswer : (op.run left.database).1 = (op.run right.database).1 ∧
          view service scope leftNext = view service scope rightNext from
        ⟨answersLeft.trans (sameAnswer.1.trans answersRight.symm), sameAnswer.2⟩
      cases op with
      | resolveModelImportRequest key digest idempotencyScope =>
          obtain ⟨request, owner, command, _, _, rfl⟩ := permitsLeft
          rw [command] at own
          cases own
          exact ⟨resolve_of_view views key digest, unchanged rfl⟩
      | commitModelImportIntent modelImport key digest idempotencyScope owner grants =>
          obtain ⟨request, now, command, admission, rfl, rfl, rfl, shape, _, freshLeft, _⟩ :=
            permitsLeft
          obtain ⟨_, _, _, _, _, _, _, _, _, freshRight, _⟩ := permitsRight
          rw [command] at own
          cases own
          have decidedLeft := commit_decided key coherentLeft injective ⟨now, shape⟩ admission
            freshLeft
          have decidedRight := commit_decided key coherentRight injective ⟨now, shape⟩ admission
            freshRight
          have sameAnswer := decidedLeft.trans
            ((resolve_of_view views key (service.digest request)).trans decidedRight.symm)
          refine ⟨sameAnswer, ?_⟩
          have databaseLeft : leftNext.database = (left.database.commitModelImportIntent modelImport
            key _ _ owner service.workspaceServingBindingGrants).2 := performsLeft.database
          have databaseRight : rightNext.database =
            (right.database.commitModelImportIntent modelImport key _ _ owner
              service.workspaceServingBindingGrants).2 := performsRight.database
          rcases left.database.commitModelImportIntent_spec modelImport key
            (service.digest request) (service.modelImportIdempotencyScope owner) owner
            service.workspaceServingBindingGrants with ⟨refused, same⟩ | ⟨accepted, admits⟩
          · rcases right.database.commitModelImportIntent_spec modelImport key
              (service.digest request) (service.modelImportIdempotencyScope owner) owner
              service.workspaceServingBindingGrants with ⟨_, sameRight⟩ | ⟨accepted, _⟩
            · simp only [view, databaseLeft, databaseRight, same, sameRight] at views ⊢
              exact views
            · exact absurd (sameAnswer.trans accepted) refused
          · rcases right.database.commitModelImportIntent_spec modelImport key
              (service.digest request) (service.modelImportIdempotencyScope owner) owner
              service.workspaceServingBindingGrants with ⟨refused, _⟩ | ⟨_, admitsRight⟩
            · exact absurd (sameAnswer.symm.trans accepted) refused
            · rw [← databaseLeft] at admits
              rw [← databaseRight] at admitsRight
              rw [view_of_admits coherentLeft injective admits,
                view_of_admits coherentRight injective admitsRight, views]
      | saveModelImport modelImport =>
          refine ⟨rfl, ?_⟩
          rw [view_of_save (save_owned coherentLeft permitsLeft) leftNext performsLeft.database,
            view_of_save (save_owned coherentRight permitsRight) rightNext performsRight.database,
            if_pos own.symm, if_pos ownRight.symm, views]
      | getUnscopedModelImport id =>
          cases own.symm.trans permitsLeft
          exact ⟨getFrom_of_view views id, unchanged rfl⟩
      | getModelImportForWorkspace id organizationId workspaceId =>
          cases own.symm.trans permitsLeft
          exact ⟨getFrom_of_view views id, unchanged rfl⟩
      | listModelImports =>
          cases own.symm.trans permitsLeft
          exact ⟨listFrom_of_view views, unchanged rfl⟩
      | listModelImportsForWorkspace organizationId workspaceId =>
          cases own.symm.trans permitsLeft
          exact ⟨listFrom_of_view views, unchanged rfl⟩

end Determined

section Pools

variable {service : ImportService} {pool next : Pool service.system}

/-- A listing that has not answered has done nothing. -/
def Listing (pool : Pool service.system) : Prop :=
  ∀ thread ∈ pool.threads, ∀ scope, thread.command = .list scope →
    thread.program = (service.body (.list scope)).attempt ∨ ∃ result, thread.program = .pure result

theorem listing_step (listing : Listing pool) (step : Step pool next) : Listing next := by
  have replaced : ∀ {index : Nat} {moved : Thread service.system} (state : State),
      (∀ scope, moved.command = .list scope → ∃ result, moved.program = .pure result) →
      Listing (⟨state, pool.threads.set index moved⟩ : Pool service.system) := by
    intro index moved state ended thread member scope command
    rcases List.mem_or_eq_of_mem_set member with before | rfl
    · exact listing thread before scope command
    · exact .inr (ended scope command)
  have begun : ∀ {index : Nat} {command : Command} {depth program},
      pool.threads[index]? = some ⟨command, depth, program⟩ → ∀ scope, command = .list scope →
      program = (service.body (.list scope)).attempt ∨ ∃ result, program = .pure result :=
    fun here => listing _ (List.mem_of_getElem? here)
  cases step with
  | start command =>
      intro thread member scope listed
      rcases List.mem_append.mp member with before | added
      · exact listing thread before scope listed
      · cases List.mem_singleton.mp added
        cases listed
        exact .inl rfl
  | call here does =>
      refine replaced _ fun scope command => ?_
      rcases begun here scope command with shape | ⟨_, shape⟩
      · cases scope with
        | none =>
            cases shape
            exact ⟨_, rfl⟩
        | some owner =>
            cases shape
            exact ⟨_, rfl⟩
      · cases shape
  | acquire here free =>
      refine replaced _ fun scope command => ?_
      rcases begun here scope command with shape | ⟨_, shape⟩
      · cases scope <;> cases shape
      · cases shape
  | release here =>
      refine replaced _ fun scope command => ?_
      rcases begun here scope command with shape | ⟨_, shape⟩
      · cases scope <;> cases shape
      · cases shape

/-- A pool of requests as a run leaves it. -/
structure Served (pool : Pool service.system) : Prop where
  reached : Reached service pool
  listing : Listing pool

theorem served_initial : Served (@Pool.initial service.system State.initial) :=
  ⟨.refl, fun _ member => absurd member List.not_mem_nil⟩

theorem Guarantee.cases {caller : Caller Command} {held : Bool} {state after : State}
    (guaranteed : Guarantee service caller held state after) :
    (held = true ∧ ∃ op answer, Performs caller true op state answer after ∧
      Permits service caller state op) ∨ (held = false ∧ ∃ scope, caller.command = .list scope) := by
  cases guaranteed with
  | held performs permits => exact .inl ⟨rfl, _, _, performs, permits⟩
  | read listing => exact .inr ⟨rfl, _, listing⟩

/-- Whatever a thread is about to do, it is permitted. -/
theorem Served.permits (served : Served pool)
    (injective : Function.Injective service.modelImportIdempotencyScope) {index depth : Nat}
    {command : Command} {op : Op} {further answer} {state : State}
    (here : pool.threads[index]? = some ⟨command, depth, .call op further⟩)
    (does : Performs ⟨index, command⟩ (decide (0 < depth)) op pool.state answer state) :
    Permits service ⟨index, command⟩ pool.state op := by
  obtain ⟨since, relied, verified⟩ := (served.reached.sound injective).verified here
  obtain ⟨guaranteed, _⟩ := verified pool.state relied answer state does
  rcases Guarantee.cases guaranteed with
    ⟨held, done, reply, performs, permits⟩ | ⟨unheld, scope, listing⟩
  · have journal := does.journal
    rw [if_pos held, performs.journal, if_pos rfl] at journal
    have same := List.append_cancel_left journal
    simp only [List.cons.injEq, and_true] at same
    obtain ⟨_, rfl, _⟩ := same
    exact permits
  · cases listing
    rcases served.listing _ (List.mem_of_getElem? here) scope rfl with shape | ⟨_, shape⟩
    · cases scope with
      | none =>
          cases shape
          rfl
      | some owner =>
          cases shape
          rfl
    · cases shape

/-- A call as it would have been noted under the lock. -/
theorem Performs.noted {caller : Caller Command} {held : Bool} {op : Op} {state after : State}
    {answer : op.Answer} (performs : Performs caller held op state answer after) :
    Performs caller true op state answer
      ⟨after.database, state.journal ++ [⟨caller, op, answer⟩]⟩ :=
  ⟨performs.answers, performs.database, rfl⟩

theorem isolated (injective : Function.Injective service.modelImportIdempotencyScope)
    (scope : Option WorkspaceScope) :
    Isolated (tenancy service) (view service scope) scope Served where
  keeps served step := ⟨served.reached.step step, listing_step served.listing step⟩
  confined := by
    intro pool index command depth op further answer state served here does other
    have performs : Performs ⟨index, command⟩ _ op pool.state answer state := does
    have unseen := confined (served.reached.coherent injective) injective performs.noted
      (served.permits injective here does) other
    exact unseen
  determined := by
    intro left right leftIndex rightIndex command depth op further leftAnswer rightAnswer leftState
      rightState servedLeft servedRight hereLeft hereRight doesLeft doesRight own views givens
    have performsLeft : Performs ⟨leftIndex, command⟩ _ op left.state leftAnswer leftState :=
      doesLeft
    have performsRight : Performs ⟨rightIndex, command⟩ _ op right.state rightAnswer rightState :=
      doesRight
    have alike := determined (servedLeft.reached.coherent injective)
      (servedRight.reached.coherent injective) injective performsLeft.noted performsRight.noted
      (servedLeft.permits injective hereLeft doesLeft)
      (servedRight.permits injective hereRight doesRight) own rfl views givens
    exact alike

/-- Each import is in the view of one scope, which no later request changes, and a
key of one scope never names an import of another. -/
structure SoleViews (pool : Pool service.system) : Prop where
  owned : ∀ row ∈ (State.database pool.state).modelImports.rows,
    ∃! scope, row ∈ (State.database pool.state).listFrom scope
  shown : ∀ scope id row, (State.database pool.state).getFrom scope id = some row ↔
    row ∈ (State.database pool.state).listFrom scope ∧ row.id = id
  stays : ∀ last, Relation.ReflTransGen Step pool last →
    ∀ scope, ∀ row ∈ (State.database pool.state).listFrom scope,
      (∃ after ∈ (State.database last.state).listFrom scope, after.id = row.id) ∧
      ∀ other, ∀ after ∈ (State.database last.state).listFrom other,
        after.id = row.id → other = scope
  keys : ∀ scope key row, (State.database pool.state).findImportKey
      (service.modelImportIdempotencyScope scope) key = some row →
    (∃ owned ∈ (State.database pool.state).listFrom scope, owned.id = row.resourceId) ∧
    ∀ other, other ≠ scope → ∀ otherRow, (State.database pool.state).findImportKey
      (service.modelImportIdempotencyScope other) key = some otherRow →
      otherRow.resourceId ≠ row.resourceId

theorem mem_listFrom {database : ImportDatabase} {scope : Option WorkspaceScope}
    {row : ModelImport} : row ∈ database.listFrom scope ↔
      row ∈ database.modelImports.rows ∧ database.modelImportScope row.id = scope := by
  rw [ImportDatabase.listFrom_eq, List.mem_reverse, ImportDatabase.mem_importsOf]

theorem getFrom_iff {database : ImportDatabase} {scope : Option WorkspaceScope} {id : Uuid}
    {row : ModelImport} :
    database.getFrom scope id = some row ↔ row ∈ database.listFrom scope ∧ row.id = id := by
  constructor
  · intro found
    rw [ImportDatabase.getFrom_eq] at found
    have same : row.id = id := by simpa using List.find?_some found
    exact ⟨List.mem_reverse.mpr (List.mem_of_find?_eq_some found), same⟩
  · rintro ⟨listed, rfl⟩
    obtain ⟨member, owned⟩ := mem_listFrom.mp listed
    exact ImportDatabase.getFrom_of_mem member owned

theorem Reached.soleViews (injective : Function.Injective service.modelImportIdempotencyScope)
    (reached : Reached service pool) : SoleViews pool where
  owned row member :=
    ⟨_, mem_listFrom.mpr ⟨member, rfl⟩, fun _ listed => (mem_listFrom.mp listed).2.symm⟩
  shown _ _ _ := getFrom_iff
  stays last run scope row listed := by
    obtain ⟨member, owned⟩ := mem_listFrom.mp listed
    have kept := reached.keeps injective run
    have owner := (kept.owners row member).trans owned
    obtain ⟨after, present, moves⟩ := kept.imports row member
    refine ⟨⟨after, mem_listFrom.mpr ⟨present, moves.id ▸ owner⟩, moves.id⟩, ?_⟩
    intro other found listed same
    obtain ⟨_, ownedBy⟩ := mem_listFrom.mp listed
    rw [same, owner] at ownedBy
    exact ownedBy.symm
  keys scope key row found := by
    have coherent := reached.coherent injective
    obtain ⟨current, present, names, owned⟩ := findImportKey_recorded coherent injective found
    refine ⟨⟨current, mem_listFrom.mpr ⟨present, owned⟩, names⟩, ?_⟩
    intro other apart otherRow foundOther same
    obtain ⟨_, _, namesOther, ownedOther⟩ := findImportKey_recorded coherent injective foundOther
    rw [namesOther, same, ← names, owned] at ownedOther
    exact apart ownedOther.symm

end Pools

/-- Two pools look the same to a scope: its requests are at the same point, with the
same results where they are over, and its imports are listed in the same order. -/
structure Alike {service : ImportService} (scope : Option WorkspaceScope)
    (left right : Pool service.system) : Prop where
  threads : (tenancy service).threadsOf scope left.threads =
    (tenancy service).threadsOf scope right.threads
  imports : (State.database left.state).listFrom scope = (State.database right.state).listFrom scope

structure ImportsIsolated (service : ImportService) : Prop where
  alike : ∀ scope {first second left right},
    (tenancy service).History (Pool.initial State.initial) first left →
    (tenancy service).History (Pool.initial State.initial) second right →
    first.filter (fun label => label.tenant = scope) =
      second.filter (fun label => label.tenant = scope) →
    Alike scope left right
  sole : ∀ pool, Reached service pool → SoleViews pool

/-- What a scope sees of any history is what its own part of it makes it see. -/
theorem imports_isolated (service : ImportService)
    (injective : Function.Injective service.sha256) : ImportsIsolated service where
  alike scope {first second left right} historyLeft historyRight agree := by
    have scopes := modelImportIdempotencyScope_injective injective
    have seen := (isolated scopes scope).histories_agree served_initial served_initial rfl
      historyLeft historyRight agree
    obtain ⟨views, threads⟩ := Prod.ext_iff.mp seen
    exact ⟨threads, listFrom_of_view views⟩
  sole pool reached := reached.soleViews (modelImportIdempotencyScope_injective injective)

namespace Sample

/-- A scope imports a model and lists its imports. -/
def byItself : List (Turn Command) :=
  [.start (.create request (some "key") (some workspace)), .run 0 20,
    .start (.list (some workspace)), .run 1 5]

/-- While it imports, a caller of the unscoped API asks for the same under the same key, and has
its import before the scope lists its own. -/
def besideAnother : List (Turn Command) :=
  [.start (.create request (some "key") (some workspace)), .run 0 7,
    .start (.create request (some "key") none), .run 1 1, .run 0 20, .run 1 20,
    .start (.list (some workspace)), .run 2 5]

/-- What a scope can list after a schedule. -/
def found (schedule : List (Turn Command)) (scope : Option WorkspaceScope) : List ModelImport :=
  (State.database (importService.play (.ok result) schedule).state).listFrom scope

end Sample

/-- Both are stored, and the scope lists the same one either way. -/
theorem imports_isolated_listing :
    (Sample.found Sample.besideAnother none).length = 1 ∧
    (Sample.found Sample.besideAnother (some Sample.workspace)).length = 1 ∧
    Alike (some Sample.workspace) (Sample.importService.play (.ok Sample.result) Sample.byItself)
      (Sample.importService.play (.ok Sample.result) Sample.besideAnother) := by
  have histories : ∀ schedule, (tenancy Sample.importService).History (Pool.initial State.initial)
      ((Sample.importService.script (.ok Sample.result)).labels (tenancy Sample.importService)
        (Pool.initial State.initial) schedule)
      (Sample.importService.play (.ok Sample.result) schedule) :=
    fun schedule => Script.history_of_play schedule _
  exact ⟨rfl, rfl, (imports_isolated Sample.importService Sample.sha256_injective).alike _
    (histories Sample.byItself) (histories Sample.besideAnother) rfl⟩

end CyreneReactor.ModelImports
