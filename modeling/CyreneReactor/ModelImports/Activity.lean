import CyreneReactor.Interaction.Beside
import CyreneReactor.ModelImports.Script
import CyreneReactor.ModelImports.Verified
import CyreneReactor.Service.Tracker

namespace CyreneReactor.ModelImports

open Interaction ImportService

/-! What the tracker is told of the imports, against what is stored of them.

The tracker is one that takes every report.
-/

/-- What the tracker answers. -/
def Op.Reported : (op : Op) → op.Answer → Prop
  | .activity _, answer => answer = .ok ()
  | _, _ => True

def ImportService.trackedSystem (service : ImportService) : System :=
  { service.system with
    exec := fun caller held op state answer next =>
      Performs caller held op state answer next ∧ Op.Reported op answer }

/-- The scripted runs of imports report without raising. -/
def ImportService.trackedScript (service : ImportService)
    (outcome : Except Raised ModelImportResult) : Script service.trackedSystem where
  answer := (service.script outcome).answer
  sound := by
    intro caller held op state answer next answered
    refine ⟨(service.script outcome).sound answered, ?_⟩
    cases op with
    | activity call =>
        cases answered
        rfl
    | utcNow | uuid4 | store | importModel => trivial

def Event.report? : Event → Option ActivityCall
  | ⟨_, .activity call, _⟩ => some call
  | _ => none

def State.reports (state : State) : List ActivityCall := state.journal.filterMap Event.report?

def reported (service : ImportService) : Told service.trackedSystem ActivityCall where
  read := State.reports
  grows := by
    rintro caller held op state answer next ⟨performs, _⟩
    unfold State.reports
    rw [performs.journal]
    split
    · exact ⟨_, List.filterMap_append⟩
    · exact ⟨[], (List.append_nil _).symm⟩

/-- What the tracker holds of an import. -/
def State.entry (state : State) (id : Uuid) : Option (Option TaskState) :=
  follow ActivityCall.track none (state.reports.filter fun call => call.task = taskId id)

def State.importState (state : State) (id : Uuid) : Option ModelImportState :=
  (state.database.modelImports.find? fun row => row.id == id).map ModelImport.state

/-- The state `list_active_activity_tasks` gives an import that is stored so. -/
def activeImport : Option ModelImportState → Option TaskState
  | some .validating => some .running
  | _ => none

theorem taskId_injective : Function.Injective taskId := fun _ _ same =>
  Uuid.str_injective (String.append_right_inj _ |>.mp same)

/-- The rows are those of issued ids, and only imports have provenance. -/
structure Rooted (state : State) : Prop where
  issued : ∀ row ∈ state.database.modelImports.rows, row.id ∈ issued state.journal
  owned : ∀ row ∈ state.database.modelImportScopes.rows,
    ∃ modelImport ∈ state.database.modelImports.rows, modelImport.id = row.id

/-- The reports are about imports. -/
def Named (state : State) : Prop := ∀ call ∈ state.reports, ∃ id, call.task = taskId id

/-- The tracker holds `entry` of one import, and what is stored of all others. -/
structure Standing (id : Uuid) (entry : Option TaskState) (state : State) : Prop where
  rooted : Rooted state
  named : Named state
  own : state.entry id = some entry
  others : ∀ other, other ≠ id → state.entry other = some (activeImport (state.importState other))

/-- The tracker holds what is stored. -/
structure Rested (state : State) : Prop where
  rooted : Rooted state
  named : Named state
  entries : ∀ id, state.entry id = some (activeImport (state.importState id))

/-- The tracker takes every report. -/
structure Legal (state : State) : Prop where
  named : Named state
  entries : ∀ id, ∃ entry, state.entry id = some entry

section Steps

variable {caller : Caller Command} {op : Op} {state next : State} {answer : op.Answer} {id : Uuid}
variable {entry : Option TaskState}

theorem Standing.legal (standing : Standing id entry state) : Legal state := by
  refine ⟨standing.named, fun other => ?_⟩
  by_cases same : other = id
  · exact ⟨entry, same ▸ standing.own⟩
  · exact ⟨_, standing.others other same⟩

theorem Standing.rested (standing : Standing id entry state)
    (same : entry = activeImport (state.importState id)) : Rested state := by
  refine ⟨standing.rooted, standing.named, fun other => ?_⟩
  by_cases here : other = id
  · rw [here, ← same]
    exact standing.own
  · exact standing.others other here

theorem Rested.standing (rested : Rested state) (id : Uuid) :
    Standing id (activeImport (state.importState id)) state :=
  ⟨rested.rooted, rested.named, rested.entries id, fun other _ => rested.entries other⟩

theorem Rested.legal (rested : Rested state) : Legal state :=
  (rested.standing ⟨0⟩).legal

theorem rested_initial : Rested State.initial :=
  ⟨⟨fun _ member => absurd member List.not_mem_nil, fun _ member => absurd member List.not_mem_nil⟩,
    fun _ member => absurd member List.not_mem_nil, fun _ => rfl⟩

theorem Performs.reports (performs : Performs caller true op state answer next) :
    next.reports = state.reports ++ (Event.report? ⟨caller, op, answer⟩).toList := by
  rw [State.reports, performs.journal, if_pos rfl, List.filterMap_append]
  cases told : Event.report? ⟨caller, op, answer⟩ <;> simp [told, State.reports]

/-- Nothing is told to the tracker. -/
theorem Performs.untold (performs : Performs caller true op state answer next)
    (untold : ∀ call, op ≠ .activity call) : next.reports = state.reports := by
  have none : Event.report? ⟨caller, op, answer⟩ = none := by
    cases op with
    | activity call => exact absurd rfl (untold call)
    | utcNow | uuid4 | store | importModel => rfl
  rw [performs.reports, none]
  exact List.append_nil _

theorem Rooted.quiet (rooted : Rooted state) (performs : Performs caller true op state answer next)
    (kept : op.effect state.database = state.database) : Rooted next := by
  have database : next.database = state.database := performs.database.trans kept
  refine ⟨fun row member => ?_, ?_⟩
  · rw [performs.journal, if_pos rfl]
    rw [database] at member
    exact mem_issued_append (rooted.issued row member)
  · rw [database]
    exact rooted.owned

theorem Standing.quiet (standing : Standing id entry state)
    (performs : Performs caller true op state answer next)
    (kept : op.effect state.database = state.database) (untold : ∀ call, op ≠ .activity call) :
    Standing id entry next ∧ next.importState id = state.importState id := by
  have database : next.database = state.database := performs.database.trans kept
  have reports := performs.untold untold
  have entries : ∀ other, next.entry other = state.entry other := fun other => by
    rw [State.entry, reports, State.entry]
  have stored : ∀ other, next.importState other = state.importState other := fun other => by
    rw [State.importState, database, State.importState]
  refine ⟨⟨standing.rooted.quiet performs kept, ?_, ?_, fun other different => ?_⟩, stored id⟩
  · rw [Named, reports]
    exact standing.named
  · rw [entries]
    exact standing.own
  · rw [entries, stored]
    exact standing.others other different

theorem Rested.quiet (rested : Rested state)
    (performs : Performs caller true op state answer next)
    (kept : op.effect state.database = state.database) (untold : ∀ call, op ≠ .activity call) :
    Rested next := by
  obtain ⟨standing, same⟩ := (rested.standing ⟨0⟩).quiet performs kept untold
  exact standing.rested (by rw [same])

theorem Standing.report {call : ActivityCall} {answer : (Op.activity call).Answer}
    {entry' : Option TaskState} (standing : Standing id entry state)
    (performs : Performs caller true (.activity call) state answer next)
    (about : call.task = taskId id) (allowed : ActivityCall.track entry call = some entry') :
    Standing id entry' next ∧ next.importState id = state.importState id := by
  have database : next.database = state.database := performs.database
  have reports : next.reports = state.reports ++ [call] := performs.reports
  have stored : ∀ other, next.importState other = state.importState other := fun other => by
    rw [State.importState, database, State.importState]
  refine ⟨⟨standing.rooted.quiet performs rfl, ?_, ?_, fun other different => ?_⟩, stored id⟩
  · intro told member
    rw [reports] at member
    rcases List.mem_append.mp member with earlier | last
    · exact standing.named told earlier
    · rw [List.mem_singleton.mp last]
      exact ⟨id, about⟩
  · have before : follow ActivityCall.track none
        (state.reports.filter fun call => call.task = taskId id) = some entry := standing.own
    rw [State.entry, reports, List.filter_append, follow_append, before, Option.bind_some,
      List.filter_cons_of_pos (by simpa using about)]
    exact follow_cons.mpr ⟨entry', allowed, rfl⟩
  · have elsewhere : call.task ≠ taskId other := fun same =>
      different (taskId_injective (same.symm.trans about))
    rw [stored, ← standing.others other different, State.entry, reports, List.filter_append,
      List.filter_cons_of_neg (by simpa using elsewhere), List.filter_nil, List.append_nil]
    rfl

/-- A write of the import `id`, which leaves the other rows as they are. -/
theorem Standing.written {modelImport : ModelImport} (standing : Standing id entry state)
    (performs : Performs caller true op state answer next) (untold : ∀ call, op ≠ .activity call)
    (rooted : Rooted next) (key : modelImport.id = id)
    (stored : ∀ other, next.importState other =
      if modelImport.id = other then some modelImport.state else state.importState other) :
    Standing id entry next ∧ next.importState id = some modelImport.state := by
  have reports := performs.untold untold
  have entries : ∀ other, next.entry other = state.entry other := fun other => by
    rw [State.entry, reports, State.entry]
  refine ⟨⟨rooted, ?_, ?_, fun other different => ?_⟩, ?_⟩
  · rw [Named, reports]
    exact standing.named
  · rw [entries]
    exact standing.own
  · have elsewhere : modelImport.id ≠ other := fun same => different (same.symm.trans key)
    rw [entries, stored, if_neg elsewhere]
    exact standing.others other different
  · rw [stored, if_pos key]

theorem Standing.save {modelImport : ModelImport}
    {answer : (Op.store (.saveModelImport modelImport)).Answer} (standing : Standing id entry state)
    (performs : Performs caller true (.store (.saveModelImport modelImport)) state answer next)
    (key : modelImport.id = id) (drawn : id ∈ issued state.journal) :
    Standing id entry next ∧ next.importState id = some modelImport.state := by
  have database : next.database = state.database.saveModelImport modelImport := performs.database
  have rows : ∀ {row}, row ∈ next.database.modelImports.rows ↔
      (row ∈ state.database.modelImports.rows ∧ row.id ≠ modelImport.id) ∨ row = modelImport := by
    intro row
    rw [database]
    simp [ImportDatabase.saveModelImport, Relational.Table.mem_insertOrReplace, ModelImport.clash]
  refine standing.written performs (fun call same => by cases same) ⟨?_, ?_⟩ key fun other => ?_
  · intro row member
    rw [performs.journal, if_pos rfl]
    rcases rows.mp member with ⟨earlier, _⟩ | rfl
    · exact mem_issued_append (standing.rooted.issued row earlier)
    · exact mem_issued_append (key ▸ drawn)
  · intro row member
    rw [database] at member
    obtain ⟨owned, present, named⟩ := standing.rooted.owned row member
    by_cases replaced : owned.id = modelImport.id
    · exact ⟨modelImport, rows.mpr (.inr rfl), replaced.symm.trans named⟩
    · exact ⟨owned, rows.mpr (.inl ⟨present, replaced⟩), named⟩
  · rw [State.importState, database]
    by_cases same : modelImport.id = other
    · rw [if_pos same]
      have found : (state.database.modelImports.insertOrReplace modelImport).find?
          (fun row => row.id == other) = some modelImport := by
        refine Relational.Table.find?_insertOrReplace_hit (by simpa using same) fun old _ wanted => ?_
        simp only [beq_iff_eq] at wanted
        simp [ModelImport.clash, wanted, same]
      rw [ImportDatabase.saveModelImport, found]
      rfl
    · rw [if_neg same]
      have found : (state.database.modelImports.insertOrReplace modelImport).find?
          (fun row => row.id == other) =
          state.database.modelImports.find? fun row => row.id == other := by
        refine Relational.Table.find?_insertOrReplace_miss (by simpa using same) fun old found => ?_
        have key : old.id = other := by simpa using List.find?_some found
        simpa [ModelImport.clash, key] using Ne.symm same
      rw [ImportDatabase.saveModelImport, found]
      rfl

theorem Standing.admit {modelImport : ModelImport} {key : Option String} {digest : String}
    {idempotencyScope : String} {scope : Option WorkspaceScope} {grants : Grants}
    {answer : (Op.store (.commitModelImportIntent modelImport key digest idempotencyScope scope
      grants)).Answer}
    (standing : Standing id entry state)
    (performs : Performs caller true (.store (.commitModelImportIntent modelImport key digest
      idempotencyScope scope grants)) state answer next)
    (named : modelImport.id = id) (drawn : id ∈ issued state.journal)
    (accepts : (state.database.commitModelImportIntent modelImport key digest idempotencyScope scope
      grants).1 = .ok none) :
    Standing id entry next ∧ next.importState id = some modelImport.state := by
  rcases state.database.commitModelImportIntent_spec modelImport key digest idempotencyScope scope
    grants with ⟨refused, _⟩ | ⟨_, admits⟩
  · exact absurd accepts refused
  have database : next.database = (state.database.commitModelImportIntent modelImport key digest
      idempotencyScope scope grants).2 := performs.database
  rw [← database] at admits
  refine standing.written performs (fun call same => by cases same) ⟨?_, ?_⟩ named fun other => ?_
  · intro row member
    rw [performs.journal, if_pos rfl]
    rw [admits.modelImports] at member
    rcases List.mem_append.mp member with earlier | last
    · exact mem_issued_append (standing.rooted.issued row earlier)
    · rw [List.mem_singleton.mp last, named]
      exact mem_issued_append drawn
  · intro row member
    rw [admits.modelImportScopes] at member
    rw [admits.modelImports]
    rcases List.mem_append.mp member with earlier | last
    · obtain ⟨owned, present, same⟩ := standing.rooted.owned row earlier
      exact ⟨owned, List.mem_append_left _ present, same⟩
    · refine ⟨modelImport, List.mem_append_right _ (List.mem_singleton.mpr rfl), ?_⟩
      cases scope with
      | none => cases last
      | some scope =>
          simp only [Option.map_some, Option.toList_some, List.mem_singleton] at last
          rw [last]
  · rw [State.importState, Relational.Table.find?, admits.modelImports, List.find?_append]
    by_cases same : modelImport.id = other
    · have absent : state.database.modelImports.rows.find? (fun row => row.id == other) = none := by
        rw [List.find?_eq_none]
        intro old member
        simpa [same] using admits.fresh old member
      simp [absent, same]
    · rw [if_neg same, State.importState, Relational.Table.find?]
      cases state.database.modelImports.rows.find? (fun row => row.id == other) <;> simp [same]

end Steps

/-- Run under the lock, the program keeps the tracker legal and ends with `post`. -/
abbrev Tracking {α : Type} (service : ImportService) (caller : Caller Command)
    (program : Imports α) (post : Except Raised α → State → Prop) (state : State) : Prop :=
  @Held service.trackedSystem (Except Raised α) caller (fun _ after => Legal after) 0 program.run
    post state

section Walks

variable {service : ImportService} {caller : Caller Command} {state : State} {id : Uuid}
variable {entry entry' : Option TaskState} {α β : Type} {post : Except Raised α → State → Prop}

namespace Tracking

theorem bind {first : Imports β} {next : β → Imports α}
    (holds : Tracking service caller first (fun outcome after =>
      match outcome with
      | .ok value => Tracking service caller (next value) post after
      | .error raised => post (.error raised) after) state) :
    Tracking service caller (first >>= next) post state :=
  Held.bind_run (holds.mono fun outcome _ rest => by cases outcome <;> exact rest)

theorem check {outcome : Except Raised β} {next : β → Imports α}
    (value : ∀ value, outcome = .ok value → Tracking service caller (next value) post state)
    (raises : ∀ raised, outcome = .error raised → post (.error raised) state) :
    Tracking service caller (Fallible.ofExcept outcome >>= next) post state := by
  refine bind ⟨rfl, ?_⟩
  cases outcome with
  | ok result => exact value result rfl
  | error raised => exact raises raised rfl

theorem call {op : Op} {goal : Except Raised op.Answer → State → Prop}
    (moves : ∀ answer after, Performs caller true op state answer after → op.Reported answer →
      Legal after ∧ goal (.ok answer) after) :
    Tracking service caller (ImportService.call op) goal state :=
  Held.perform_run fun answer after does => moves answer after does.1 does.2

/-- A call that changes nothing and tells nothing. -/
theorem ask {op : Op} {next : op.Answer → Imports α} (standing : Standing id entry state)
    (kept : op.effect state.database = state.database) (untold : ∀ call, op ≠ .activity call)
    (rest : ∀ answer after, Performs caller true op state answer after → Standing id entry after →
      after.importState id = state.importState id →
      Tracking service caller (next answer) post after) :
    Tracking service caller (ImportService.call op >>= next) post state := by
  refine bind (call fun answer after performs _ => ?_)
  obtain ⟨there, same⟩ := standing.quiet performs kept untold
  exact ⟨there.legal, rest answer after performs there same⟩

theorem report {activity : ActivityCall} {goal : Except Raised Unit → State → Prop}
    (standing : Standing id entry state) (about : activity.task = taskId id)
    (allowed : ActivityCall.track entry activity = some entry')
    (told : ∀ answer after, Performs caller true (.activity activity) state answer after →
      Standing id entry' after → after.importState id = state.importState id →
      goal (.ok ()) after) :
    Tracking service caller (ImportService.report activity) goal state := by
  refine bind (call fun answer after performs reported => ?_)
  obtain ⟨there, same⟩ := standing.report performs about allowed
  obtain rfl : answer = .ok () := reported
  exact ⟨there.legal, rfl, told _ after performs there same⟩

theorem completeAfterPersist {task : String} {persist : Imports Unit}
    {goal : Except Raised Unit → State → Prop} (tracked : service.reactor.tracked = true)
    (persists : Tracking service caller persist (fun outcome after =>
      match outcome with
      | .ok _ => Tracking service caller (ImportService.report (.complete task)) goal after
      | .error raised => goal (.error raised) after) state) :
    Tracking service caller (service.completeAfterPersist task persist) goal state := by
  rw [ImportService.completeAfterPersist_eq]
  rw [if_pos tracked]
  refine bind (persists.mono fun outcome after rest => ?_)
  cases outcome <;> exact rest

end Tracking

/-- The outcome of an import is saved, and it is no longer active. -/
theorem saved_tracks {settled : ModelImport} (tracked : service.reactor.tracked = true)
    (standing : Standing id (some .running) state) (key : settled.id = id)
    (drawn : id ∈ issued state.journal) (final : settled.state ≠ .validating) :
    Tracking service caller
      (service.completeAfterPersist (taskId id) (ImportService.store (.saveModelImport settled)))
      (fun _ after => Rested after) state := by
  have saves : Tracking service caller (ImportService.store (.saveModelImport settled))
      (fun outcome after => outcome = .ok () ∧ Standing id (some .running) after ∧
        after.importState id = some settled.state) state := by
    refine Tracking.call fun answer after performs _ => ?_
    obtain ⟨there, stored⟩ := standing.save performs key drawn
    exact ⟨there.legal, rfl, there, stored⟩
  refine Tracking.completeAfterPersist tracked (saves.mono fun outcome after reached => ?_)
  obtain ⟨rfl, there, stored⟩ := reached
  refine Tracking.report there rfl rfl fun answer last _ complete same => complete.rested ?_
  rw [same, stored]
  cases state : settled.state with
  | validating => exact absurd state final
  | ready | failed => rfl

/-- The binding is asked, and what came of it is saved. -/
theorem importAndSave_tracks {engine : Engine} {request : CreateModelImportRequest}
    {pending : ModelImport} (tracked : service.reactor.tracked = true) (key : pending.id = id)
    (standing : Standing id (some .running) state)
    (validating : state.importState id = some .validating) (drawn : id ∈ issued state.journal) :
    Tracking service caller (service.importAndSave engine request pending)
      (fun _ after => Rested after) state := by
  subst key
  have later : ∀ {op : Op} {answer : op.Answer} {before after : State},
      Performs caller true op before answer after → pending.id ∈ issued before.journal →
      pending.id ∈ issued after.journal := by
    intro op answer before after performs drawn
    rw [performs.journal, if_pos rfl]
    exact mem_issued_append drawn
  refine Tracking.ask standing rfl (fun call same => by cases same)
    fun answer asked performs standing same => ?_
  have drawn := later performs drawn
  have finishes : ∀ {settled : ModelImport} {outcome : Imports ModelImport} {after : State},
      settled.id = pending.id → settled.state ≠ .validating →
      Standing pending.id (some .running) after → pending.id ∈ issued after.journal →
      (∀ last, Rested last → Tracking service caller outcome (fun _ after => Rested after) last) →
      Tracking service caller (do
        service.completeAfterPersist (taskId pending.id)
          (ImportService.store (.saveModelImport settled))
        outcome) (fun _ after => Rested after) after := by
    intro settled outcome after key final standing drawn rest
    refine Tracking.bind ((saved_tracks tracked standing key drawn final).mono
      fun saved last rested => ?_)
    cases saved with
    | ok value => exact rest last rested
    | error raised => exact rested
  cases answer with
  | ok result =>
      refine Tracking.ask standing rfl (fun call same => by cases same)
        fun now read performs standing _ => ?_
      have drawn := later performs drawn
      exact finishes rfl (fun same => by cases same) standing drawn
        fun last rested => ⟨rfl, rested⟩
  | error raised =>
      rcases raised with error | failure | kind
      · exact ⟨rfl, standing.rested (by rw [same, validating]; rfl)⟩
      · refine Tracking.ask standing rfl (fun call same => by cases same)
          fun now read performs standing _ => ?_
        have drawn := later performs drawn
        exact finishes rfl (fun same => by cases same) standing drawn
          fun last rested => ⟨rfl, rested⟩
      · exact ⟨rfl, standing.rested (by rw [same, validating]; rfl)⟩

/-- What follows a request whose key is new. -/
theorem admitImport_tracks {request : CreateModelImportRequest} {key : Option String}
    {scope : Option WorkspaceScope} (tracked : service.reactor.tracked = true)
    (rested : Rested state) (admission : service.admission request scope = .ok ())
    (unused : Unused service key scope state.database) :
    Tracking service caller (service.admitImport request key scope) (fun _ after => Rested after)
      state := by
  refine Tracking.check (fun engine _ => ?_) fun raised _ => rested
  refine Tracking.ask (rested.standing ⟨0⟩) rfl (fun call same => by cases same)
    fun now timed times standing same => ?_
  have timedRested : Rested timed := standing.rested (by rw [same])
  have sameDatabase : timed.database = state.database := times.database
  refine Tracking.bind (Tracking.call fun (id : Uuid) drew draws _ => ?_)
  have drewRested : Rested drew := timedRested.quiet draws rfl fun call same => by cases same
  have unissued : id ∉ issued timed.journal := draws.answers
  have drawn : id ∈ issued drew.journal := by
    rw [draws.journal, if_pos rfl]
    exact List.mem_filterMap.mpr ⟨_, List.mem_append_right _ (List.mem_singleton.mpr rfl), rfl⟩
  have database : drew.database = state.database := Eq.trans draws.database sameDatabase
  have fresh : ∀ old ∈ drew.database.modelImports.rows, old.id ≠ id := by
    rintro old member rfl
    rw [database, ← sameDatabase] at member
    exact unissued (timedRested.rooted.issued old member)
  have absent : drew.importState id = none := by
    rw [State.importState, Option.map_eq_none_iff]
    refine List.find?_eq_none.mpr fun old member => ?_
    simpa using fresh old member
  have start : Standing id none drew := by
    have standing := drewRested.standing id
    rw [absent] at standing
    exact standing
  refine ⟨drewRested.legal, ?_⟩
  have admitted : Tracking service caller
      (service.admitAndPersist (taskId id) .accepted
        (service.persistIntent (pendingImport request id now) request key scope))
      (fun outcome after => outcome = .ok none ∧ Standing id (some .accepted) after ∧
        after.importState id = some .validating ∧ id ∈ issued after.journal) drew := by
    rw [ImportService.admitAndPersist_eq]
    rw [if_pos tracked]
    refine Tracking.bind (Tracking.report start rfl rfl fun told after performs standing _ => ?_)
    have kept : after.database = state.database := Eq.trans performs.database database
    have drawn : id ∈ issued after.journal := by
      rw [performs.journal, if_pos rfl]
      exact mem_issued_append drawn
    have granted : (scope.any fun owner => !service.workspaceServingBindingGrants.admits
        (pendingImport request id now).servingBindingId owner) = false := admission_granted admission
    have free : ∀ old ∈ after.database.modelImports.rows, old.id ≠ id := by
      rw [kept, ← database]
      exact fresh
    have unscoped : ∀ old ∈ after.database.modelImportScopes.rows, old.id ≠ id := by
      rintro old member rfl
      obtain ⟨owned, present, same⟩ := standing.rooted.owned old member
      exact free owned present same
    have accepts : (after.database.commitModelImportIntent (pendingImport request id now) key
        (service.digest request) (service.modelImportIdempotencyScope scope) scope
        service.workspaceServingBindingGrants).1 = .ok none :=
      ImportDatabase.commitModelImportIntent_admits granted free unscoped (kept ▸ unused)
    refine Tracking.bind (Tracking.call fun answer last performs _ => ?_)
    obtain ⟨there, stored⟩ := standing.admit performs rfl drawn accepts
    obtain rfl : answer = .ok none := Eq.trans performs.answers accepts
    refine ⟨there.legal, rfl, rfl, there, stored, ?_⟩
    rw [performs.journal, if_pos rfl]
    exact mem_issued_append drawn
  refine Tracking.bind (admitted.mono fun outcome after reached => ?_)
  obtain ⟨rfl, standing, stored, drawn⟩ := reached
  have runs : Tracking service caller
      (service.transitionAndPersist (taskId id) .running (pure ()))
      (fun outcome last => outcome = .ok () ∧ Standing id (some .running) last ∧
        last.importState id = some .validating ∧ id ∈ issued last.journal) after := by
    rw [ImportService.transitionAndPersist_eq]
    rw [if_pos tracked]
    refine Tracking.bind (Tracking.report standing rfl rfl fun told last performs there same => ?_)
    refine ⟨rfl, rfl, there, same.trans stored, ?_⟩
    rw [performs.journal, if_pos rfl]
    exact mem_issued_append drawn
  refine Tracking.bind (runs.mono fun outcome last reached => ?_)
  obtain ⟨rfl, there, validating, drawn⟩ := reached
  exact importAndSave_tracks tracked rfl there validating drawn

/-- A read. -/
theorem requireModelImportForScope_tracks {scope : Option WorkspaceScope} (rested : Rested state) :
    Tracking service caller (requireModelImportForScope id scope) (fun _ after => Rested after)
      state := by
  have read : ∀ {op : StoreOp} {next : op.Answer → Imports ModelImport}, op.writes = false →
      (∀ answer after, Rested after →
        Tracking service caller (next answer) (fun _ after => Rested after) after) →
      Tracking service caller (ImportService.store op >>= next) (fun _ after => Rested after)
        state := by
    intro op next reads rest
    refine Tracking.bind (Tracking.call fun answer after performs _ => ?_)
    have there : Rested after := rested.quiet performs (StoreOp.run_of_not_writes reads _)
      fun call same => by cases same
    exact ⟨there.legal, rest answer after there⟩
  cases scope with
  | none => exact read rfl fun found after there => by cases found <;> exact ⟨rfl, there⟩
  | some scope => exact read rfl fun found after there => by cases found <;> exact ⟨rfl, there⟩

theorem createUnderLock_tracks {request : CreateModelImportRequest} {key : Option String}
    {scope : Option WorkspaceScope} (tracked : service.reactor.tracked = true)
    (rested : Rested state) :
    Tracking service caller (service.createUnderLock request key scope)
      (fun _ after => Rested after) state := by
  refine Tracking.check (fun _ admission => ?_) fun raised _ => rested
  refine Tracking.bind (Tracking.call fun answer resolved performs _ => ?_)
  have there : Rested resolved := rested.quiet performs rfl fun call same => by cases same
  have database : resolved.database = state.database := performs.database
  refine ⟨there.legal, Tracking.check (fun replay replays => ?_) fun raised _ => there⟩
  cases replay with
  | some original => exact requireModelImportForScope_tracks there
  | none =>
      have unresolved : resolved.database.resolveModelImportRequest key (service.digest request)
          (service.modelImportIdempotencyScope scope) = .ok none := by
        rw [database]
        exact Eq.trans (Eq.symm performs.answers) replays
      exact admitImport_tracks tracked there admission
        (ImportDatabase.resolve_none_iff.mp unresolved)

end Walks

section Pools

variable {service : ImportService}

/-- With the lock the tracker stays legal; without it nothing changes. -/
def tracking (service : ImportService) : Discipline service.trackedSystem where
  guarantee _ held state next := if held then Legal next else next = state
  lockInvariant := Rested
  fresh _ _ := True
  lockInvariant_of_unheld := by
    intro caller state next holds same
    obtain rfl : next = state := by simpa using same
    exact holds
  fresh_of_guarantee _ _ _ := trivial

theorem tracking_exclusive : (tracking service).Exclusive := by
  intro caller state next same
  simpa [tracking] using same

theorem tracking_bodies (tracked : service.reactor.tracked = true) (index : Nat) (command : Command)
    (state : State) :
    (tracking service).Verified ⟨index, command⟩ 0 (service.body command).attempt
      (fun _ _ => True) state := by
  have locked : ∀ {program : Imports ModelImport},
      (∀ before, Rested before → Tracking service ⟨index, command⟩ program
        (fun _ after => Rested after) before) →
      (tracking service).Verified ⟨index, command⟩ 0
        ((Program.locked program.run).bind
          (ExceptT.bindCont fun modelImport => pure [modelImport])) (fun _ _ => True) state := by
    intro program holds
    refine Discipline.Verified.locked tracking_exclusive fun before relied rested => ?_
    have kept : (tracking service).guarantee ⟨index, command⟩ true = fun _ after => Legal after := by
      funext before after
      simp [tracking]
    rw [kept]
    refine (holds before rested).mono fun outcome after rested => ⟨rested, ?_⟩
    cases outcome <;> exact ⟨rfl, trivial⟩
  cases command with
  | create request key scope => exact locked fun before rested => createUnderLock_tracks tracked rested
  | get id =>
      exact locked fun before rested => by
        have reads : Tracking service ⟨index, .get id⟩ (requireModelImportForScope id none)
          (fun _ after => Rested after) before := requireModelImportForScope_tracks rested
        exact reads
  | list scope =>
      cases scope with
      | none =>
          intro before relied answer after does
          have performs : Performs ⟨index, .list none⟩ false (.store .listModelImports) before
            answer after := does.1
          exact ⟨performs.unheld rfl, rfl, trivial⟩
      | some scope =>
          intro before relied answer after does
          have performs : Performs ⟨index, .list (some scope)⟩ false (.store
            (.listModelImportsForWorkspace scope.organizationId scope.workspaceId)) before
            answer after := does.1
          exact ⟨performs.unheld rfl, rfl, trivial⟩

variable {pool : Pool service.trackedSystem}

/-- A pool of requests that some interleaving reaches from an empty database. -/
abbrev Tracked (service : ImportService) (pool : Pool service.trackedSystem) : Prop :=
  @Reachable service.trackedSystem State.initial pool

theorem Tracked.sound (tracked : service.reactor.tracked = true) (reached : Tracked service pool) :
    (tracking service).Sound (fun _ _ _ => True) pool :=
  Discipline.Sound.of_reachable (fun index command state _ => tracking_bodies tracked index command
    state) rested_initial (fun _ => trivial) reached

/-- With the lock free the tracker holds what is stored. -/
theorem Tracked.rested (tracked : service.reactor.tracked = true) (reached : Tracked service pool)
    (quiescent : pool.Quiescent) : Rested pool.state :=
  (reached.sound tracked).invariant quiescent

/-- At any moment it has taken every report. -/
theorem Tracked.legal (tracked : service.reactor.tracked = true) (reached : Tracked service pool) :
    Legal pool.state := by
  induction reached with
  | refl => exact rested_initial.legal
  | @tail middle last before step ih =>
      have sound := Tracked.sound tracked before
      have starts := fun command => tracking_bodies tracked middle.threads.length command middle.state
      rcases (sound.step starts step).2 with same | ⟨caller, held, guaranteed⟩
      · rw [same]
        exact ih
      · cases held with
        | true => simpa [tracking] using guaranteed
        | false =>
            have same : last.state = middle.state := by simpa [tracking] using guaranteed
            rw [same]
            exact ih

end Pools

end CyreneReactor.ModelImports
