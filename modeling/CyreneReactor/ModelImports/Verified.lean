import CyreneReactor.ModelImports.Discipline

namespace CyreneReactor.ModelImports

open Interaction ImportService

/-! Every request about imports keeps the discipline, and what it answers. -/

namespace ImportService

/-- Two scopes never share an idempotency scope, and none is the legacy one. -/
theorem modelImportIdempotencyScope_injective {service : ImportService}
    (injective : Function.Injective service.sha256) :
    Function.Injective service.modelImportIdempotencyScope := by
  have apart : ∀ text : String, "model-import" ≠ "model-import:workspace:" ++ text := by
    intro text same
    have lengths := congrArg String.length same
    rw [String.length_append] at lengths
    have fixed : "model-import".length = 12 ∧ "model-import:workspace:".length = 23 := by decide
    omega
  intro left right same
  cases left with
  | none =>
      cases right with
      | none => rfl
      | some scope => exact absurd same (apart _)
  | some first =>
      cases right with
      | none => exact absurd same.symm (apart _)
      | some second =>
          have digests : service.sha256 (JsonText.pair first.organizationId first.workspaceId) =
              service.sha256 (JsonText.pair second.organizationId second.workspaceId) :=
            String.append_right_inj _ |>.mp same
          obtain ⟨organizations, workspaces⟩ := JsonText.pair_inj (injective digests)
          obtain ⟨organizationId, workspaceId⟩ := first
          simp only at organizations workspaces
          rw [organizations, workspaces]

end ImportService

/-- A step under the lock is permitted; without it only listings are read. -/
inductive Guarantee (service : ImportService) (caller : Caller Command) :
    Bool → State → State → Prop where
  | held {op : Op} {state next : State} {answer : op.Answer}
      (performs : Performs caller true op state answer next)
      (permits : Permits service caller state op) : Guarantee service caller true state next
  | read {state : State} {scope : Option WorkspaceScope} (listing : caller.command = .list scope) :
      Guarantee service caller false state state

theorem Guarantee.fresh {service : ImportService} {caller : Caller Command} {held : Bool}
    {state next : State} {index : Nat} (fresh : ∀ event ∈ state.journal, event.caller.index ≠ index)
    (guaranteed : Guarantee service caller held state next) (different : caller.index ≠ index) :
    ∀ event ∈ next.journal, event.caller.index ≠ index := by
  cases guaranteed with
  | read => exact fresh
  | held performs =>
      intro event member
      rw [performs.journal] at member
      rcases List.mem_append.mp member with earlier | last
      · exact fresh event earlier
      · rw [List.mem_singleton.mp last]
        exact different

theorem Guarantee.permitted {service : ImportService} {caller : Caller Command} {held : Bool}
    {state next : State} (guaranteed : Guarantee service caller held state next) :
    next = state ∨ ∃ op answer, Performs caller true op state answer next ∧
      Permits service caller state op := by
  cases guaranteed with
  | held performs permits => exact .inr ⟨_, _, performs, permits⟩
  | read => exact .inl rfl

def discipline (service : ImportService) : Discipline service.system where
  guarantee := Guarantee service
  lockInvariant := Coherent service
  fresh index state := ∀ event ∈ State.journal state, event.caller.index ≠ index
  lockInvariant_of_unheld := by
    rintro caller state next holds ⟨⟩
    exact holds
  fresh_of_guarantee := fun fresh guaranteed different => guaranteed.fresh fresh different

theorem discipline_exclusive (service : ImportService) : (discipline service).Exclusive := by
  rintro caller state next ⟨⟩
  rfl

/-- The program, run under the lock from `state`, only makes permitted steps and
ends with `post`. -/
abbrev Inside {α : Type} (service : ImportService) (caller : Caller Command) (program : Imports α)
    (post : Except Raised α → State → Prop) (state : State) : Prop :=
  @Held service.system (Except Raised α) caller (Guarantee service caller true) 0 program.run post
    state

namespace Inside

variable {service : ImportService} {caller : Caller Command} {α β : Type}
  {post : Except Raised β → State → Prop} {state : State}

theorem pure {value : β} (holds : post (.ok value) state) :
    Inside service caller (pure value) post state :=
  ⟨rfl, holds⟩

theorem throw {raised : Raised} (holds : post (.error raised) state) :
    Inside service caller (throw raised) post state :=
  ⟨rfl, holds⟩

theorem bind {first : Imports α} {next : α → Imports β}
    (holds : Inside service caller first (fun outcome after =>
      match outcome with
      | .ok value => Inside service caller (next value) post after
      | .error raised => post (.error raised) after) state) :
    Inside service caller (first >>= next) post state :=
  Held.bind_run (holds.mono fun outcome _ rest => by cases outcome <;> exact rest)

theorem ofExcept_bind {outcome : Except Raised α} {next : α → Imports β}
    (value : ∀ value, outcome = .ok value → Inside service caller (next value) post state)
    (raises : ∀ raised, outcome = .error raised → post (.error raised) state) :
    Inside service caller (Fallible.ofExcept outcome >>= next) post state := by
  refine bind ⟨rfl, ?_⟩
  cases outcome with
  | ok result => exact value result rfl
  | error raised => exact raises raised rfl

/-- One call, when it is permitted. -/
theorem call {op : Op} {goal : Except Raised op.Answer → State → Prop}
    (permits : Permits service caller state op)
    (rest : ∀ answer next, Performs caller true op state answer next → goal (.ok answer) next) :
    Inside service caller (call op) goal state :=
  Held.perform_run fun answer after does => ⟨.held does permits, rest answer after does⟩

theorem call_bind {op : Op} {next : op.Answer → Imports β}
    (permits : Permits service caller state op)
    (rest : ∀ answer after, Performs caller true op state answer after →
      Inside service caller (next answer) post after) :
    Inside service caller (ImportService.call op >>= next) post state :=
  bind (call permits rest)

end Inside

/-- The caller has committed nothing and called no binding. -/
structure Entered (service : ImportService) (caller : Caller Command) (state : State) : Prop where
  coherent : Coherent service state
  unadmitted : ∀ event ∈ state.journal, event.caller = caller → event.admitted? = none
  uncalled : ∀ event ∈ state.journal, event.caller = caller → event.imports = false

/-- The key, when there is one, has not been used in this scope. -/
def Unused (service : ImportService) (key : Option String) (scope : Option WorkspaceScope)
    (database : ImportDatabase) : Prop :=
  ∀ used, key = some used →
    database.findImportKey (service.modelImportIdempotencyScope scope) used = none

/-- The caller has committed `pending`, and its row waits for the outcome. -/
structure Waiting (service : ImportService) (caller : Caller Command) (pending : ModelImport)
    (state : State) : Prop where
  coherent : Coherent service state
  admitted : Admitted caller pending state.journal
  present : pending ∈ state.database.modelImports.rows

section Phases

variable {service : ImportService} {caller : Caller Command} {op : Op} {state next : State}
  {answer : op.Answer} {pending : ModelImport}

theorem Performs.idle_database (performs : Performs caller true op state answer next)
    (idle : op.idle = true) : next.database = state.database :=
  performs.database.trans (Op.idle_database idle _)

/-- Without the lock nothing is recorded. -/
theorem Performs.unheld (performs : Performs caller false op state answer next)
    (idle : op.idle = true) : next = state := by
  obtain ⟨database, journal⟩ := next
  obtain ⟨_, sameDatabase, sameJournal⟩ := performs
  rw [Op.idle_database idle] at sameDatabase
  simp only [Bool.false_eq_true, if_false] at sameDatabase sameJournal
  rw [sameDatabase, sameJournal]

theorem Entered.idle (entered : Entered service caller state)
    (performs : Performs caller true op state answer next) (idle : op.idle = true) :
    Entered service caller next := by
  have journal : next.journal = state.journal ++ [⟨caller, op, answer⟩] := performs.journal
  refine ⟨entered.coherent.idle performs idle, ?_, ?_⟩ <;>
  · intro event member own
    rw [journal] at member
    rcases List.mem_append.mp member with earlier | last
    · first
        | exact entered.unadmitted event earlier own
        | exact entered.uncalled event earlier own
    · rw [List.mem_singleton.mp last]
      first
        | exact Op.idle_admitted idle
        | exact Op.idle_imports idle

theorem Unused.idle {key : Option String} {scope : Option WorkspaceScope}
    (unused : Unused service key scope state.database)
    (performs : Performs caller true op state answer next) (idle : op.idle = true) :
    Unused service key scope next.database := by
  rw [performs.idle_database idle]
  exact unused

theorem Waiting.idle (waiting : Waiting service caller pending state)
    (performs : Performs caller true op state answer next) (idle : op.idle = true) :
    Waiting service caller pending next := by
  refine ⟨waiting.coherent.idle performs idle, ?_, ?_⟩
  · rw [performs.journal]
    exact waiting.admitted.append
  · rw [performs.idle_database idle]
    exact waiting.present

end Phases

/-- What a create answers.  A request that is not admitted is refused, and one
whose key was used by another request of its scope is a conflict or a replay. -/
structure Answered (service : ImportService) (caller : Caller Command)
    (request : CreateModelImportRequest) (key : Option String) (scope : Option WorkspaceScope)
    (result : Except Raised ModelImport) (state : State) : Prop where
  coherent : Coherent service state
  refused : ∀ refusal, service.admission request scope = .error refusal → result = .error refusal
  current : ∀ modelImport, result = .ok modelImport →
    modelImport ∈ state.database.modelImports.rows ∧
      state.database.modelImportScope modelImport.id = scope
  repeated : service.admission request scope = .ok () →
    (∀ pending, ¬ Admitted caller pending state.journal) →
    ∀ used, key = some used →
    ∀ row, state.database.findImportKey (service.modelImportIdempotencyScope scope) used = some row →
      if row.requestHash = service.digest request then
        ∃ modelImport, result = .ok modelImport ∧ modelImport.id = row.resourceId
      else result = .error (.product importConflict)

section Create

variable {service : ImportService} {caller : Caller Command} {request : CreateModelImportRequest}
  {key : Option String} {scope : Option WorkspaceScope} {state : State} {pending : ModelImport}

/-- Errors of a request whose key was new are no answers to a repeated key. -/
theorem Answered.of_unused (entered : Entered service caller state)
    (unused : Unused service key scope state.database)
    (admission : service.admission request scope = .ok ()) (raised : Raised) :
    Answered service caller request key scope (.error raised) state where
  coherent := entered.coherent
  refused refusal refused := by
    rw [admission] at refused
    cases refused
  current _ same := by cases same
  repeated _ _ used same row found := by
    rw [unused used same] at found
    cases found

/-- Once admitted, any error ends the request, and so does its current row. -/
theorem Answered.of_admitted (coherent : Coherent service state)
    (admitted : Admitted caller pending state.journal)
    (admission : service.admission request scope = .ok ()) {result : Except Raised ModelImport}
    (current : ∀ modelImport, result = .ok modelImport →
      modelImport ∈ state.database.modelImports.rows ∧
        state.database.modelImportScope modelImport.id = scope) :
    Answered service caller request key scope result state where
  coherent := coherent
  refused refusal refused := by
    rw [admission] at refused
    cases refused
  current := current
  repeated _ unadmitted := absurd admitted (unadmitted pending)

/-- Idle operations of the caller keep `holds`. -/
def Lasting (caller : Caller Command) (holds : State → Prop) : Prop :=
  ∀ ⦃op : Op⦄ ⦃state next : State⦄ ⦃answer : op.Answer⦄, op.idle = true →
    Performs caller true op state answer next → holds state → holds next

theorem Waiting.lasting : Lasting caller (Waiting service caller pending) :=
  fun _ _ _ _ idle performs waiting => waiting.idle performs idle

theorem Entered.lasting : Lasting caller fun state =>
    Entered service caller state ∧ Unused service key scope state.database :=
  fun _ _ _ _ idle performs holds => ⟨holds.1.idle performs idle, holds.2.idle performs idle⟩

namespace Inside

variable {α : Type} {holds : State → Prop} {post : Except Raised α → State → Prop}

theorem report {activity : ActivityCall} {goal : Except Raised Unit → State → Prop}
    (lasting : Lasting caller holds) (here : holds state)
    (told : ∀ outcome after, holds after → goal outcome after) :
    Inside service caller (ImportService.report activity) goal state := by
  refine call_bind trivial fun answer next performs => ?_
  exact ⟨rfl, told answer next (lasting rfl performs here)⟩

theorem admitAndPersist {taskId : String} {taskState : TaskState} {persist : Imports α}
    (lasting : Lasting caller holds) (here : holds state)
    (rest : ∀ after, holds after → Inside service caller persist post after)
    (raises : ∀ raised after, holds after → post (.error raised) after) :
    Inside service caller (service.admitAndPersist taskId taskState persist) post state := by
  rw [ImportService.admitAndPersist_eq]
  split
  · refine bind (report lasting here fun outcome after kept => ?_)
    cases outcome with
    | ok value => exact rest after kept
    | error raised => exact raises raised after kept
  · exact rest state here

theorem transitionAndPersist {taskId : String} {taskState : TaskState} {persist : Imports α}
    (lasting : Lasting caller holds) (here : holds state)
    (rest : ∀ after, holds after → Inside service caller persist post after)
    (raises : ∀ raised after, holds after → post (.error raised) after) :
    Inside service caller (service.transitionAndPersist taskId taskState persist) post state := by
  rw [ImportService.transitionAndPersist_eq]
  split
  · refine bind (report lasting here fun outcome after kept => ?_)
    cases outcome with
    | ok value => exact rest after kept
    | error raised => exact raises raised after kept
  · exact rest state here

theorem completeAfterPersist {taskId : String} {persist : Imports Unit}
    {goal : Except Raised Unit → State → Prop} (lasting : Lasting caller holds)
    (persists : Inside service caller persist (fun outcome after =>
      match outcome with
      | .ok _ => holds after
      | .error raised => goal (.error raised) after) state)
    (told : ∀ outcome after, holds after → goal outcome after) :
    Inside service caller (service.completeAfterPersist taskId persist) goal state := by
  rw [ImportService.completeAfterPersist_eq]
  split
  · refine bind (persists.mono fun outcome after rest => ?_)
    cases outcome with
    | ok value => exact report lasting rest told
    | error raised => exact rest
  · refine persists.mono fun outcome after rest => ?_
    cases outcome with
    | ok value => exact told _ after rest
    | error raised => exact rest

end Inside

/-- A read through the scope of the caller. -/
theorem requireModelImportForScope_inside {id : Uuid}
    {post : Except Raised ModelImport → State → Prop} (command : caller.command.scope = scope)
    (rest : ∀ op answer next, op.idle = true → Performs caller true op state answer next →
      post (match state.database.getFrom scope id with
        | some modelImport => .ok modelImport
        | none => .error (.product modelImportNotFound)) next) :
    Inside service caller (requireModelImportForScope id scope) post state := by
  cases scope with
  | none =>
      refine Inside.call_bind command fun answer next performs => ?_
      have found : answer = state.database.getFrom none id := performs.answers
      have ends := rest _ answer next rfl performs
      rw [← found] at ends
      cases answer with
      | some modelImport => exact Inside.pure ends
      | none => exact Inside.throw ends
  | some scope =>
      refine Inside.call_bind command fun answer next performs => ?_
      have found : answer = state.database.getFrom (some scope) id := performs.answers
      have ends := rest _ answer next rfl performs
      rw [← found] at ends
      cases answer with
      | some modelImport => exact Inside.pure ends
      | none => exact Inside.throw ends

theorem admitted_owned (coherent : Coherent service state)
    (admitted : Admitted caller pending state.journal)
    (command : caller.command = .create request key scope) :
    state.database.modelImportScope pending.id = scope := by
  obtain ⟨asked, used, owner, commanded, _, recorded⟩ := coherent.tables.recorded admitted
  rw [command, Command.create.injEq] at commanded
  rw [commanded.2.2]
  exact recorded.owned

/-- An outcome of the caller's is saved, and its row is the current one. -/
structure Saved (service : ImportService) (caller : Caller Command) (pending settled : ModelImport)
    (state : State) : Prop where
  coherent : Coherent service state
  admitted : Admitted caller pending state.journal
  present : settled ∈ state.database.modelImports.rows

theorem Saved.lasting {settled : ModelImport} :
    Lasting caller (Saved service caller pending settled) := by
  intro op state next answer idle performs saved
  refine ⟨saved.coherent.idle performs idle, ?_, ?_⟩
  · rw [performs.journal]
    exact saved.admitted.append
  · rw [performs.idle_database idle]
    exact saved.present

theorem save_inside {settled : ModelImport} (waiting : Waiting service caller pending state)
    (settles : Settles pending settled)
    {goal : Except Raised Unit → State → Prop}
    (told : ∀ outcome after, Saved service caller pending settled after → goal outcome after)
    (taskId : String) :
    Inside service caller
      (service.completeAfterPersist taskId (ImportService.store (.saveModelImport settled)))
      goal state := by
  have permits : Permits service caller state (.store (.saveModelImport settled)) :=
    ⟨pending, waiting.admitted, waiting.present, settles⟩
  refine Inside.completeAfterPersist Saved.lasting (Inside.call permits ?_) told
  intro answer next performs
  refine ⟨waiting.coherent.save performs permits, ?_, ?_⟩
  · rw [performs.journal]
    exact waiting.admitted.append
  · rw [performs.database]
    exact Relational.Table.mem_insertOrReplace.mpr (.inr rfl)

/-- The binding is asked once, and its outcome is saved. -/
theorem importAndSave_inside (waiting : Waiting service caller pending state)
    (uncalled : ∀ event ∈ state.journal, event.caller = caller → event.imports = false)
    (command : caller.command = .create request key scope)
    (admission : service.admission request scope = .ok ()) (engine : Engine) :
    Inside service caller (service.importAndSave engine request pending)
      (Answered service caller request key scope) state := by
  have permits : Permits service caller state (.importModel engine request) :=
    ⟨⟨pending, waiting.admitted⟩, uncalled⟩
  refine Inside.call_bind permits fun answer after performs => ?_
  have asked : Waiting service caller pending after := by
    refine ⟨waiting.coherent.importModel performs permits, ?_, ?_⟩
    · rw [performs.journal]
      exact waiting.admitted.append
    · rw [performs.database]
      exact waiting.present
  have ended : ∀ {settled : ModelImport} {result : Except Raised ModelImport} {last : State},
      Settles pending settled → Saved service caller pending settled last →
      (∀ modelImport, result = .ok modelImport → modelImport = settled) →
      Answered service caller request key scope result last := by
    intro settled result last settles saved shown
    refine .of_admitted saved.coherent saved.admitted admission fun modelImport same => ?_
    rw [shown modelImport same]
    refine ⟨saved.present, ?_⟩
    rw [settles.id]
    exact admitted_owned saved.coherent saved.admitted command
  cases answer with
  | ok result =>
      refine Inside.call_bind trivial fun now read performs => ?_
      have settles : Settles pending (readyImport pending result now) := .ready result now
      refine Inside.bind (save_inside (asked.idle performs rfl) settles ?_ _)
      intro outcome last saved
      cases outcome with
      | ok value =>
          exact Inside.pure (ended settles saved fun _ same => (Except.ok.inj same).symm)
      | error raised => exact ended settles saved fun _ same => by cases same
  | error raised =>
      cases raised with
      | serving failure =>
          refine Inside.call_bind trivial fun now read performs => ?_
          have settles : Settles pending
            (failedImport pending (importFailed pending.id failure) now) := .failed failure now
          refine Inside.bind (save_inside (asked.idle performs rfl) settles ?_ _)
          intro outcome last saved
          cases outcome with
          | ok value => exact Inside.throw (ended settles saved fun _ same => by cases same)
          | error raised => exact ended settles saved fun _ same => by cases same
      | product error =>
          exact Inside.throw (.of_admitted asked.coherent asked.admitted admission
            fun _ same => by cases same)
      | other kind =>
          exact Inside.throw (.of_admitted asked.coherent asked.admitted admission
            fun _ same => by cases same)

theorem admission_granted (admission : service.admission request scope = .ok ()) :
    (scope.any fun owner => !service.workspaceServingBindingGrants.admits
      request.servingBindingId owner) = false := by
  unfold ImportService.admission at admission
  split at admission
  · cases admission
  · split at admission
    · cases admission
    · rename_i passes
      simpa using passes

/-- An id was drawn for the import, and no row has it. -/
structure Drawn (service : ImportService) (caller : Caller Command) (key : Option String)
    (scope : Option WorkspaceScope) (id : Uuid) (state : State) : Prop where
  entered : Entered service caller state
  unused : Unused service key scope state.database
  issued : id ∈ ModelImports.issued state.journal
  fresh : ∀ old ∈ state.database.modelImports.rows, old.id ≠ id

theorem Drawn.lasting {id : Uuid} : Lasting caller (Drawn service caller key scope id) := by
  intro op state next answer idle performs drawn
  refine ⟨drawn.entered.idle performs idle, drawn.unused.idle performs idle, ?_, ?_⟩
  · rw [performs.journal]
    exact mem_issued_append drawn.issued
  · rw [performs.idle_database idle]
    exact drawn.fresh

/-- The intent of a new import is always admitted. -/
theorem persistIntent_inside {id : Uuid} {now : Datetime}
    (drawn : Drawn service caller key scope id state)
    (command : caller.command = .create request key scope)
    (admission : service.admission request scope = .ok ())
    {post : Except Raised (Option Uuid) → State → Prop}
    (rest : ∀ after, Waiting service caller (pendingImport request id now) after →
      (∀ event ∈ after.journal, event.caller = caller → event.imports = false) →
      post (.ok none) after) :
    Inside service caller
      (service.persistIntent (pendingImport request id now) request key scope) post state := by
  have permits : Permits service caller state (.store (.commitModelImportIntent
      (pendingImport request id now) key (service.digest request)
      (service.modelImportIdempotencyScope scope) scope service.workspaceServingBindingGrants)) :=
    ⟨request, now, command, admission, rfl, rfl, rfl, rfl, drawn.issued, drawn.fresh,
      drawn.entered.unadmitted⟩
  have granted : (scope.any fun owner => !service.workspaceServingBindingGrants.admits
      (pendingImport request id now).servingBindingId owner) = false := admission_granted admission
  have accepts : (state.database.commitModelImportIntent (pendingImport request id now) key
      (service.digest request) (service.modelImportIdempotencyScope scope) scope
      service.workspaceServingBindingGrants).1 = .ok none :=
    ImportDatabase.commitModelImportIntent_admits granted drawn.fresh
      (drawn.entered.coherent.tables.unscoped drawn.fresh) drawn.unused
  refine Inside.call_bind permits fun answer after performs => ?_
  have answered : answer = .ok none := performs.answers.trans accepts
  have journal := performs.journal
  have database := performs.database
  have coherent := drawn.entered.coherent.commit performs permits
  subst answered
  refine ⟨rfl, rest after ⟨coherent, ?_, ?_⟩ ?_⟩
  · rw [journal]
    exact admitted_append.mpr (.inr ⟨rfl, rfl⟩)
  · rcases state.database.commitModelImportIntent_spec (pendingImport request id now) key
      (service.digest request) (service.modelImportIdempotencyScope scope) scope
      service.workspaceServingBindingGrants with ⟨refused, _⟩ | ⟨_, admits⟩
    · exact absurd accepts refused
    · rw [database]
      exact admits.modelImports ▸ List.mem_append_right _ (List.mem_singleton.mpr rfl)
  · intro event member own
    rw [journal] at member
    rcases List.mem_append.mp member with earlier | last
    · exact drawn.entered.uncalled event earlier own
    · rw [List.mem_singleton.mp last]
      rfl

/-- What follows a request whose key is new. -/
theorem admitImport_inside (entered : Entered service caller state)
    (unused : Unused service key scope state.database)
    (command : caller.command = .create request key scope)
    (admission : service.admission request scope = .ok ()) :
    Inside service caller (service.admitImport request key scope)
      (Answered service caller request key scope) state := by
  refine Inside.ofExcept_bind (fun engine _ => ?_)
    (fun raised _ => .of_unused entered unused admission raised)
  refine Inside.call_bind trivial fun now timed told => ?_
  have enteredTimed := entered.idle told rfl
  have unusedTimed := unused.idle told rfl
  refine Inside.call_bind trivial fun id drew draws => ?_
  have new : id ∉ issued timed.journal := draws.answers
  have same : drew.database = timed.database := draws.idle_database rfl
  have drawn : Drawn service caller key scope id drew := by
    refine ⟨enteredTimed.idle draws rfl, unusedTimed.idle draws rfl, ?_, ?_⟩
    · rw [draws.journal]
      exact List.mem_filterMap.mpr
        ⟨_, List.mem_append_right _ (List.mem_singleton.mpr rfl), rfl⟩
    · intro old member sameId
      rw [same] at member
      exact new (sameId ▸ enteredTimed.coherent.tables.issued old member)
  refine Inside.bind (Inside.admitAndPersist Drawn.lasting drawn ?_ ?_)
  · intro admitting kept
    refine persistIntent_inside kept command admission fun waiting waits uncalled => ?_
    have calledLasting : Lasting caller fun state =>
        Waiting service caller (pendingImport request id now) state ∧
          ∀ event ∈ state.journal, event.caller = caller → event.imports = false := by
      intro op state next answer idle performs holds
      refine ⟨holds.1.idle performs idle, fun event member own => ?_⟩
      rw [performs.journal] at member
      rcases List.mem_append.mp member with earlier | last
      · exact holds.2 event earlier own
      · rw [List.mem_singleton.mp last]
        exact Op.idle_imports idle
    refine Inside.bind (Inside.transitionAndPersist calledLasting ⟨waits, uncalled⟩ ?_ ?_)
    · intro running holds
      exact Inside.pure (importAndSave_inside holds.1 holds.2 command admission engine)
    · intro raised after holds
      exact .of_admitted holds.1.coherent holds.1.admitted admission fun _ same => by cases same
  · intro raised after kept
    exact .of_unused kept.entered kept.unused admission raised

/-- A key that some request of the scope used: its row, and the import it names. -/
theorem findImportKey_recorded (coherent : Coherent service state)
    (injective : Function.Injective service.modelImportIdempotencyScope) {used : String}
    {row : IdempotencyRow}
    (found : state.database.findImportKey (service.modelImportIdempotencyScope scope) used =
      some row) :
    ∃ modelImport ∈ state.database.modelImports.rows, modelImport.id = row.resourceId ∧
      state.database.modelImportScope modelImport.id = scope := by
  obtain ⟨member, named, _⟩ := ImportDatabase.findImportKey_mem found
  obtain ⟨other, pending, asked, owner, admitted, command, shape⟩ := coherent.tables.keys row member
  have owners : owner = scope := by
    rw [shape] at named
    exact injective named
  obtain ⟨_, _, _, _, _, recorded⟩ := coherent.tables.recorded admitted
  obtain ⟨current, present, same⟩ := recorded.row_id
  refine ⟨current, present, ?_, ?_⟩
  · rw [same, shape]
  · rw [same, admitted_owned coherent admitted command, owners]

/-- `create_model_import`, from the moment it holds the lock. -/
theorem createUnderLock_inside (entered : Entered service caller state)
    (injective : Function.Injective service.modelImportIdempotencyScope)
    (command : caller.command = .create request key scope) :
    Inside service caller (service.createUnderLock request key scope)
      (Answered service caller request key scope) state := by
  refine Inside.ofExcept_bind (fun _ admission => ?_) (fun raised admission => ?_)
  · have permits : Permits service caller state (.store (.resolveModelImportRequest key
        (service.digest request) (service.modelImportIdempotencyScope scope))) :=
      ⟨request, scope, command, admission, rfl, rfl⟩
    refine Inside.call_bind permits fun answer resolved performs => ?_
    have entered := entered.idle performs rfl
    have answers : answer = resolved.database.resolveModelImportRequest key
        (service.digest request) (service.modelImportIdempotencyScope scope) := by
      rw [performs.idle_database rfl]
      exact performs.answers
    refine Inside.ofExcept_bind (fun replay replays => ?_) (fun raised conflicts => ?_)
    · cases replay with
      | none =>
          have unresolved := answers.symm.trans replays
          exact admitImport_inside entered (ImportDatabase.resolve_none_iff.mp unresolved) command
            admission
      | some original =>
          obtain ⟨used, row, keyed, found, sameHash, names⟩ :=
            ImportDatabase.resolve_some (answers.symm.trans replays)
          obtain ⟨current, present, sameId, owned⟩ :=
            findImportKey_recorded entered.coherent injective found
          have shown : resolved.database.getFrom scope original = some current := by
            rw [← names, ← sameId]
            exact ImportDatabase.getFrom_of_mem present owned
          refine requireModelImportForScope_inside (by rw [command]; rfl) ?_
          intro op read next idle reads
          have same := reads.idle_database idle
          rw [shown]
          refine ⟨entered.coherent.idle reads idle, ?_, ?_, ?_⟩
          · intro refusal refused
            rw [admission] at refused
            cases refused
          · rintro modelImport ⟨⟩
            rw [same]
            exact ⟨present, owned⟩
          · intro _ _ other keyedOther otherRow foundOther
            rw [keyed, Option.some.injEq] at keyedOther
            subst keyedOther
            rw [same, found, Option.some.injEq] at foundOther
            subst foundOther
            rw [if_pos sameHash]
            exact ⟨current, rfl, sameId⟩
    · obtain ⟨used, row, keyed, found, different, rfl⟩ :=
        ImportDatabase.resolve_error (answers.symm.trans conflicts)
      refine ⟨entered.coherent, ?_, fun _ same => (by cases same), ?_⟩
      · intro refusal refused
        rw [admission] at refused
        cases refused
      · intro _ _ other keyedOther otherRow foundOther
        rw [keyed, Option.some.injEq] at keyedOther
        subst keyedOther
        rw [found, Option.some.injEq] at foundOther
        subst foundOther
        rw [if_neg different]
  · refine ⟨entered.coherent, ?_, fun _ same => (by cases same), ?_⟩
    · intro refusal refused
      rw [admission] at refused
      cases refused
      rfl
    · intro admitted
      rw [admission] at admitted
      cases admitted

end Create

/-- What a request that is over has answered. -/
def Finished (service : ImportService) (caller : Caller Command)
    (result : Except Raised (List ModelImport)) (state : State) : Prop :=
  ∀ request key scope, caller.command = .create request key scope →
    ∃ outcome : Except Raised ModelImport, result = outcome.map (fun modelImport => [modelImport]) ∧
      Answered service caller request key scope outcome state

variable {service : ImportService}

theorem entered_of_fresh {caller : Caller Command} {state : State}
    (coherent : Coherent service state)
    (fresh : ∀ event ∈ state.journal, event.caller.index ≠ caller.index) :
    Entered service caller state := by
  refine ⟨coherent, ?_, ?_⟩ <;>
  · intro event member own
    exact absurd (own ▸ rfl) (fresh event member)

/-- Every request, from a state it has not touched. -/
theorem bodies (injective : Function.Injective service.modelImportIdempotencyScope)
    (index : Nat) (command : Command) (state : State)
    (fresh : (discipline service).fresh index state) :
    (discipline service).Verified ⟨index, command⟩ 0 (service.body command).attempt
      (Finished service ⟨index, command⟩) state := by
  cases command with
  | create request key scope =>
      change (discipline service).Verified ⟨index, .create request key scope⟩ 0
        ((Program.locked (service.createUnderLock request key scope).run).bind
          (ExceptT.bindCont fun modelImport => pure [modelImport])) _ state
      refine Discipline.Verified.locked (discipline_exclusive service)
        fun before relied coherent => ?_
      have entered := entered_of_fresh coherent ((discipline service).fresh_of_rely fresh relied)
      refine Held.mono (createUnderLock_inside entered injective rfl)
        fun outcome after answered => ⟨answered.coherent, ?_⟩
      cases outcome with
      | ok modelImport =>
          exact ⟨rfl, fun _ _ _ same => by cases same; exact ⟨.ok modelImport, rfl, answered⟩⟩
      | error raised =>
          exact ⟨rfl, fun _ _ _ same => by cases same; exact ⟨.error raised, rfl, answered⟩⟩
  | get id =>
      change (discipline service).Verified ⟨index, .get id⟩ 0
        ((Program.locked (requireModelImport id).run).bind
          (ExceptT.bindCont fun modelImport => pure [modelImport])) _ state
      refine Discipline.Verified.locked (discipline_exclusive service)
        fun before relied coherent => ?_
      have reads : Inside service ⟨index, .get id⟩ (requireModelImportForScope id none)
          (fun _ after => Coherent service after) before :=
        requireModelImportForScope_inside rfl fun _ _ _ idle performs =>
          coherent.idle performs idle
      refine Held.mono reads fun outcome after coherent => ⟨coherent, ?_⟩
      cases outcome with
      | ok modelImport => exact ⟨rfl, fun _ _ _ same => by cases same⟩
      | error raised => exact ⟨rfl, fun _ _ _ same => by cases same⟩
  | list scope =>
      cases scope with
      | none =>
          intro before relied answer after does
          have performs : Performs ⟨index, .list none⟩ false (.store .listModelImports) before
            answer after := does
          cases performs.unheld rfl
          exact ⟨.read rfl, rfl, fun _ _ _ same => by cases same⟩
      | some scope =>
          intro before relied answer after does
          have performs : Performs ⟨index, .list (some scope)⟩ false (.store
            (.listModelImportsForWorkspace scope.organizationId scope.workspaceId)) before
            answer after := does
          cases performs.unheld rfl
          exact ⟨.read rfl, rfl, fun _ _ _ same => by cases same⟩

abbrev Reached (service : ImportService) (pool : Pool service.system) : Prop :=
  @Reachable service.system State.initial pool

variable {pool next : Pool service.system}

theorem Reached.sound (injective : Function.Injective service.modelImportIdempotencyScope)
    (reached : Reached service pool) : (discipline service).Sound (Finished service) pool :=
  Discipline.Sound.of_reachable (bodies injective) (coherent_initial service)
    (fun _ _ member => absurd member List.not_mem_nil) reached

/-- A step performs one permitted operation, or it leaves the state alone. -/
theorem Reached.permitted (injective : Function.Injective service.modelImportIdempotencyScope)
    (reached : Reached service pool) (step : Step pool next) :
    next.state = pool.state ∨ ∃ caller op answer,
      Performs caller true op (pool.state : State) answer next.state ∧
        Permits service caller pool.state op := by
  have sound := reached.sound injective
  have starts := fun command =>
    bodies injective _ command pool.state (sound.fresh (Nat.le_refl _))
  rcases (sound.step starts step).2 with same | ⟨caller, held, guaranteed⟩
  · exact .inl same
  · exact Guarantee.permitted guaranteed |>.imp_right fun ⟨op, answer, permitted⟩ =>
      ⟨caller, op, answer, permitted⟩

theorem Reached.coherent (injective : Function.Injective service.modelImportIdempotencyScope)
    (reached : Reached service pool) : Coherent service pool.state := by
  induction reached with
  | refl => exact coherent_initial service
  | tail before step ih =>
      rcases Reached.permitted injective before step with same | ⟨_, _, _, performs, permits⟩
      · rw [same]
        exact ih
      · exact ih.step performs permits

theorem Reached.keeps (injective : Function.Injective service.modelImportIdempotencyScope)
    (reached : Reached service pool) (run : Relation.ReflTransGen Step pool next) :
    Keeps (State.database pool.state) (State.database next.state) := by
  induction run with
  | refl => exact .refl _
  | tail before step ih =>
      have middle : Reached service _ := reached.trans before
      rcases middle.permitted injective step with same | ⟨_, _, _, performs, permits⟩
      · rw [same]
        exact ih
      · exact ih.trans ((middle.coherent injective).keeps performs permits)

theorem extends_of_rely {caller : Caller Command} {held : Bool} {first last : State}
    (relied : (discipline service).rely caller held first last) :
    ∃ events, last.journal = first.journal ++ events := by
  induction relied with
  | refl => exact ⟨[], (List.append_nil _).symm⟩
  | tail _ step ih =>
      obtain ⟨events, before⟩ := ih
      obtain ⟨other, otherHeld, _, _, guaranteed⟩ := step
      rcases Guarantee.permitted guaranteed with same | ⟨op, answer, performs, _⟩
      · exact ⟨events, by rw [same, before]⟩
      · refine ⟨events ++ [⟨other, op, answer⟩], ?_⟩
        rw [performs.journal, if_pos rfl, before, List.append_assoc]

end CyreneReactor.ModelImports
