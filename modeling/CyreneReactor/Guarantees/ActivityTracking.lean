import CyreneReactor.Guarantees.CommandLock
import CyreneReactor.Lifecycle.Tracked
import CyreneReactor.ModelImports.Activity
import CyreneReactor.ModelImports.Script

namespace CyreneReactor

open Interaction ReactorService

/-! The tracker of activity against the store.

The commands on deployments and the imports run beside each other under one lock, and
tell one tracker.
-/

/-- `list_active_activity_tasks` -/
def listActiveActivityTasks (database : Database) (imports : ImportDatabase) :
    List (String × TaskState) :=
  let validating := imports.modelImports.rows.filter fun modelImport =>
    modelImport.state == .validating
  let moving := database.deployments.rows.reverse.filter fun deployment =>
    deployment.observedState == .starting || deployment.observedState == .stopping
  (validating.map fun modelImport => (ModelImports.ImportService.taskId modelImport.id, .running)) ++
    moving.map fun deployment => (taskId deployment.id,
      if deployment.observedState == .stopping then .canceling else .dispatching)

theorem State.observed_eq_some {state : State} {id : Uuid} {observed : ObservedState} :
    state.observed id = some observed ↔
      ∃ deployment ∈ state.database.deployments.rows,
        deployment.id = id ∧ deployment.observedState = observed := by
  rw [State.observed, Option.map_eq_some_iff]
  constructor
  · rintro ⟨deployment, found, rfl⟩
    obtain ⟨member, named⟩ := Database.getDeployment_mem found
    exact ⟨deployment, member, named, rfl⟩
  · rintro ⟨deployment, member, rfl, rfl⟩
    exact ⟨deployment, Database.getDeployment_of_mem member, rfl⟩

theorem ModelImports.State.importState_eq_some {state : ModelImports.State} {id : Uuid}
    {stored : ModelImportState} :
    state.importState id = some stored ↔
      ∃ modelImport ∈ state.database.modelImports.rows,
        modelImport.id = id ∧ modelImport.state = stored := by
  rw [State.importState, Option.map_eq_some_iff]
  constructor
  · rintro ⟨modelImport, found, rfl⟩
    obtain ⟨member, named⟩ := Relational.Table.find?_mem found
    exact ⟨modelImport, member, by simpa using named, rfl⟩
  · rintro ⟨modelImport, member, rfl, rfl⟩
    cases found : state.database.modelImports.find? fun row => row.id == modelImport.id with
    | none => simpa using List.find?_eq_none.mp found modelImport member
    | some other =>
        obtain ⟨present, named⟩ := Relational.Table.find?_mem found
        rw [ImportDatabase.eq_of_id present member (by simpa using named)]
        exact ⟨modelImport, rfl, rfl⟩

theorem activeDeployment_eq_some {observed : Option ObservedState} {state : TaskState} :
    activeDeployment observed = some state ↔
      ∃ stored, observed = some stored ∧ (stored = .starting ∨ stored = .stopping) ∧
        state = if stored == .stopping then .canceling else .dispatching := by
  cases observed with
  | none => simp [activeDeployment]
  | some stored => cases stored <;> cases state <;> simp [activeDeployment]

theorem ModelImports.activeImport_eq_some {stored : Option ModelImportState} {state : TaskState} :
    activeImport stored = some state ↔ stored = some .validating ∧ state = .running := by
  cases stored with
  | none => simp [activeImport]
  | some stored => cases stored <;> cases state <;> simp [activeImport]

/-- A task is listed for what is stored of its deployment, or of its import. -/
theorem mem_listActiveActivityTasks {state : State} {imports : ModelImports.State} {task : String}
    {active : TaskState} :
    (task, active) ∈ listActiveActivityTasks state.database imports.database ↔
      (∃ id, task = ModelImports.ImportService.taskId id ∧
        ModelImports.activeImport (imports.importState id) = some active) ∨
      ∃ id, task = taskId id ∧ activeDeployment (state.observed id) = some active := by
  simp only [listActiveActivityTasks, List.mem_append, List.mem_map, List.mem_filter,
    List.mem_reverse, beq_iff_eq, Bool.or_eq_true, Prod.mk.injEq]
  refine or_congr ⟨?_, ?_⟩ ⟨?_, ?_⟩
  · rintro ⟨modelImport, ⟨member, validating⟩, rfl, rfl⟩
    exact ⟨modelImport.id, rfl, ModelImports.activeImport_eq_some.mpr
      ⟨ModelImports.State.importState_eq_some.mpr ⟨modelImport, member, rfl, validating⟩, rfl⟩⟩
  · rintro ⟨id, rfl, listed⟩
    obtain ⟨stored, rfl⟩ := ModelImports.activeImport_eq_some.mp listed
    obtain ⟨modelImport, member, rfl, validating⟩ :=
      ModelImports.State.importState_eq_some.mp stored
    exact ⟨modelImport, ⟨member, validating⟩, rfl, rfl⟩
  · rintro ⟨deployment, ⟨member, moving⟩, rfl, rfl⟩
    exact ⟨deployment.id, rfl, activeDeployment_eq_some.mpr ⟨deployment.observedState,
      State.observed_eq_some.mpr ⟨deployment, member, rfl, rfl⟩, moving, by simp⟩⟩
  · rintro ⟨id, rfl, listed⟩
    obtain ⟨stored, here, moving, rfl⟩ := activeDeployment_eq_some.mp listed
    obtain ⟨deployment, member, rfl, rfl⟩ := State.observed_eq_some.mp here
    exact ⟨deployment, ⟨member, moving⟩, rfl, by simp⟩

/-- Every report of the commands is about a deployment. -/
theorem Reached.reports {environment : Environment} {service : ReactorService}
    {pool : Pool (service.system environment)} (reached : Reached environment service pool) :
    ∀ call ∈ State.reports pool.state, ∃ id, call.task = taskId id := by
  induction reached with
  | refl => exact fun call member => absurd member List.not_mem_nil
  | @tail middle last before step ih =>
      have calling : Calling Guarded (fun _ _ => True) middle := Reached.calling before
      rcases calling.moves step with same | ⟨caller, depth, op, answer, allowed, does⟩
      · rw [same]
        exact ih
      · obtain ⟨_, _, after⟩ := does
        rw [after]
        intro call member
        unfold State.reports State.after at member
        split at member
        · rw [List.filterMap_append] at member
          rcases List.mem_append.mp member with earlier | made
          · exact ih call earlier
          · cases op with
            | activity told =>
                obtain rfl : call = told := List.mem_singleton.mp made
                exact allowed.2
            | utcNow | uuid4 | store | port => cases made
        · exact ih call member

/-- The commands on deployments and the imports of one service. -/
abbrev Activities (environment : Environment) (service : ModelImports.ImportService) : Type :=
  Beside (service.reactor.system environment) service.trackedSystem ActivityCall

/-- What some interleaving of them reaches from an empty database. -/
abbrev Activities.Reached {environment : Environment} {service : ModelImports.ImportService}
    (pools : Activities environment service) : Prop :=
  Beside.Reachable (reported environment service.reactor) (ModelImports.reported service)
    State.initial ModelImports.State.initial pools

section States

variable {environment : Environment} {service : ModelImports.ImportService}

def Activities.deployments (pools : Activities environment service) : State := pools.left.state

def Activities.imports (pools : Activities environment service) : ModelImports.State :=
  pools.right.state

end States

/-- The source holds what is active in the store, each task in the state listed for it, as
it does when it is started with this list. -/
structure Refines (source : ActivitySource) (table : source.Table) (database : Database)
    (imports : ImportDatabase) : Prop where
  active : ∀ task state, source.active table task = some state ↔
    (task, state) ∈ listActiveActivityTasks database imports
  canceling : ∀ task, source.active table task = some .canceling ↔
    ∃ deployment ∈ database.deployments.rows,
      deployment.observedState = .stopping ∧ task = taskId deployment.id
  rebuilt : source.active (source.start (listActiveActivityTasks database imports)) =
    source.active table

theorem taskId_apart (deployment modelImport : Uuid) :
    taskId deployment ≠ ModelImports.ImportService.taskId modelImport := by
  intro same
  have first := congrArg (fun text => text.toList.head?) same
  simp [taskId, ModelImports.ImportService.taskId, String.toList_append] at first

section Pools

variable {environment : Environment} {service : ModelImports.ImportService}
variable {pools : Activities environment service}

theorem Activities.Reached.named (reached : pools.Reached) :
    ∀ call ∈ pools.deployments.reports, ∃ id, call.task = taskId id :=
  Reached.reports reached.left_reached

/-- What is told of a deployment is told by the commands on deployments. -/
theorem Activities.Reached.deployment_reports (tracked : service.reactor.tracked = true)
    (reached : pools.Reached) (id : Uuid) :
    pools.trail.filter (fun call => call.task = taskId id) =
      pools.deployments.reports.filter fun call => call.task = taskId id := by
  apply reached.filter_left rfl
  intro call member
  have legal := ModelImports.Tracked.legal tracked reached.right_reached
  obtain ⟨other, named⟩ := legal.named call member
  rw [named]
  exact decide_eq_false (taskId_apart id other).symm

/-- What is told of an import is told by the imports. -/
theorem Activities.Reached.import_reports (reached : pools.Reached) (id : Uuid) :
    pools.trail.filter (fun call => call.task = ModelImports.ImportService.taskId id) =
      pools.imports.reports.filter fun call =>
        call.task = ModelImports.ImportService.taskId id := by
  apply reached.filter_right rfl
  intro call member
  obtain ⟨other, named⟩ := reached.named call member
  rw [named]
  exact decide_eq_false (taskId_apart other id)

/-- Nothing is told of anything else. -/
theorem Activities.Reached.other_reports (tracked : service.reactor.tracked = true)
    (reached : pools.Reached) {task : String} (deployments : ∀ id, task ≠ taskId id)
    (imports : ∀ id, task ≠ ModelImports.ImportService.taskId id) :
    pools.trail.filter (fun call => call.task = task) = [] := by
  have legal := ModelImports.Tracked.legal tracked reached.right_reached
  rw [reached.filter_left rfl]
  · apply List.filter_eq_nil_iff.mpr
    intro call member same
    obtain ⟨id, named⟩ := reached.named call member
    exact deployments id ((of_decide_eq_true same).symm.trans named)
  · intro call member
    obtain ⟨id, named⟩ := legal.named call member
    exact decide_eq_false fun same => imports id (same.symm.trans named)

/-- At any moment the tracker has taken what it was told of a task. -/
theorem Activities.Reached.takes (tracked : service.reactor.tracked = true)
    (reached : pools.Reached) (task : String) :
    ∃ entry, follow ActivityCall.track none (pools.trail.filter fun call => call.task = task) =
      some entry := by
  by_cases deployment : ∃ id, task = taskId id
  · obtain ⟨id, rfl⟩ := deployment
    rw [reached.deployment_reports tracked, ← State.track_marks]
    have left : Serial environment service.reactor pools.deployments ∨
        Underway environment service.reactor pools.deployments :=
      CyreneReactor.Reached.underway reached.left_reached
    rcases left with serial | underway
    · exact ⟨_, serial.tracked tracked id⟩
    · exact underway.tracked tracked id
  · by_cases imported : ∃ id, task = ModelImports.ImportService.taskId id
    · obtain ⟨id, rfl⟩ := imported
      rw [reached.import_reports]
      exact (ModelImports.Tracked.legal tracked reached.right_reached).entries id
    · rw [reached.other_reports tracked (not_exists.mp deployment) (not_exists.mp imported)]
      exact ⟨none, rfl⟩

/-- With the lock free it holds what is listed. -/
theorem Activities.Reached.holds_listed (tracked : service.reactor.tracked = true)
    (reached : pools.Reached) (left : pools.left.Quiescent) (right : pools.right.Quiescent)
    {task : String} {entry : Option TaskState}
    (holds : follow ActivityCall.track none (pools.trail.filter fun call => call.task = task) =
      some entry) (state : TaskState) :
    entry = some state ↔ (task, state) ∈ listActiveActivityTasks
      pools.deployments.database pools.imports.database := by
  rw [mem_listActiveActivityTasks]
  by_cases deployment : ∃ id, task = taskId id
  · obtain ⟨id, rfl⟩ := deployment
    have serial : Serial environment service.reactor pools.deployments :=
      CyreneReactor.Reached.serial reached.left_reached left
    rw [reached.deployment_reports tracked, ← State.track_marks, serial.tracked tracked id,
      Option.some.injEq] at holds
    subst holds
    constructor
    · exact fun listed => .inr ⟨id, rfl, listed⟩
    · rintro (⟨other, same, _⟩ | ⟨other, same, listed⟩)
      · exact absurd same (taskId_apart id other)
      · exact taskId_injective same ▸ listed
  · by_cases imported : ∃ id, task = ModelImports.ImportService.taskId id
    · obtain ⟨id, rfl⟩ := imported
      have rested : ModelImports.Rested pools.imports :=
        ModelImports.Tracked.rested tracked reached.right_reached right
      have entry' : follow ActivityCall.track none (pools.imports.reports.filter fun call =>
          call.task = ModelImports.ImportService.taskId id) =
          some (ModelImports.activeImport (pools.imports.importState id)) := rested.entries id
      rw [reached.import_reports, entry', Option.some.injEq] at holds
      subst holds
      constructor
      · exact fun listed => .inl ⟨id, rfl, listed⟩
      · rintro (⟨other, same, listed⟩ | ⟨other, same, _⟩)
        · exact ModelImports.taskId_injective same ▸ listed
        · exact absurd ⟨other, same⟩ deployment
    · rw [reached.other_reports tracked (not_exists.mp deployment) (not_exists.mp imported)] at holds
      cases holds
      constructor
      · intro listed
        cases listed
      · rintro (⟨id, same, _⟩ | ⟨id, same, _⟩)
        · exact absurd ⟨id, same⟩ imported
        · exact absurd ⟨id, same⟩ deployment

/-- A task is listed as CANCELING for its deployment that is STOPPING. -/
theorem listed_canceling {state : State} {imports : ModelImports.State} {task : String} :
    (task, .canceling) ∈ listActiveActivityTasks state.database imports.database ↔
      ∃ deployment ∈ state.database.deployments.rows,
        deployment.observedState = .stopping ∧ task = taskId deployment.id := by
  rw [mem_listActiveActivityTasks]
  constructor
  · rintro (⟨id, _, listed⟩ | ⟨id, rfl, listed⟩)
    · cases (ModelImports.activeImport_eq_some.mp listed).2
    · obtain ⟨stored, here, rfl | rfl, canceling⟩ := activeDeployment_eq_some.mp listed
      · cases canceling
      · obtain ⟨deployment, member, rfl, stopping⟩ := State.observed_eq_some.mp here
        exact ⟨deployment, member, stopping, rfl⟩
  · rintro ⟨deployment, member, stopping, rfl⟩
    refine .inr ⟨deployment.id, rfl, ?_⟩
    rw [State.observed_eq_some.mpr ⟨deployment, member, rfl, stopping⟩]
    rfl

end Pools

/-- Whatever source keeps to its contract takes every report, and with the lock free it
holds what the store lists. -/
theorem activity_refines_the_store (environment : Environment)
    (service : ModelImports.ImportService) (tracked : service.reactor.tracked = true)
    {source : ActivitySource} (documented : source.Documented)
    {pools : Activities environment service} (reached : pools.Reached) :
    ∃ table, follow source.report (source.start []) pools.trail = some table ∧
      (pools.left.Quiescent → pools.right.Quiescent →
        Refines source table pools.deployments.database pools.imports.database) := by
  choose held takes using reached.takes tracked
  have followed : follow (keyed ActivityCall.task ActivityCall.track)
      (source.active (source.start [])) pools.trail = some held := by
    rw [documented.started_empty]
    exact follow_keyed.mpr takes
  obtain ⟨table, taken, rfl⟩ := documented.follows followed
  refine ⟨table, taken, fun left right => ?_⟩
  have active := fun task => reached.holds_listed tracked left right (takes task)
  refine ⟨active, fun task => ?_, ?_⟩
  · rw [active task .canceling]
    exact listed_canceling
  · funext task
    refine Option.ext fun state => ?_
    rw [documented.started, active task state]
    intro task state other listed again
    have same := ((active task state).mpr listed).symm.trans ((active task other).mpr again)
    exact Option.some.inj same

namespace Sample

/-- A source that keeps its tasks in a table. -/
def source : ActivitySource where
  Table := String → Option TaskState
  start tasks task := (tasks.find? fun active => active.1 == task).map Prod.snd
  report := Interaction.keyed ActivityCall.task ActivityCall.track
  active table := table

theorem source_documented : source.Documented where
  started tasks single task state := by
    change (tasks.find? fun active => active.1 == task).map Prod.snd = some state ↔ _
    rw [Option.map_eq_some_iff]
    constructor
    · rintro ⟨⟨other, _⟩, found, rfl⟩
      obtain rfl : other = task := by simpa using List.find?_some found
      exact List.mem_of_find?_eq_some found
    · intro member
      cases found : tasks.find? fun active => active.1 == task with
      | none => simpa using List.find?_eq_none.mp found _ member
      | some active =>
          obtain ⟨other, listed⟩ := active
          obtain rfl : other = task := by simpa using List.find?_some found
          exact ⟨_, rfl, single _ _ _ (List.mem_of_find?_eq_some found) member⟩
  takes table call entry tracked :=
    ⟨_, congrArg (Option.map _) tracked, rfl⟩

/-- The start raises what the service does not expect. -/
def interrupted : Replies := { replies with start := .error (.other .typeError) }

/-- A create that was left STARTING. -/
def interruptedCreate : Pool (service.system .unrestricted) :=
  rehearse interrupted.engines (fun _ _ => trivial) 40 (.create request none)
    (Pool.initial State.initial)

/-- The import of a model, and its replay. -/
def imported : Pool ModelImports.Sample.importService.trackedSystem :=
  (ModelImports.Sample.importService.trackedScript (.ok ModelImports.Sample.result)).play
    (Pool.initial ModelImports.State.initial) ModelImports.Sample.repeatedly

/-- The create is left, then the model is imported. -/
def activities : Activities .unrestricted ModelImports.Sample.importService :=
  ⟨interruptedCreate, imported,
    (reported .unrestricted service).since State.initial interruptedCreate.state ++
      (ModelImports.reported ModelImports.Sample.importService).since
        ModelImports.State.initial imported.state⟩

theorem activities_reached : activities.Reached := by
  have created : Relation.ReflTransGen Step (Pool.initial State.initial) interruptedCreate :=
    rehearse_reaches (Pool.initial_quiescent _)
  have importing : Relation.ReflTransGen Step (Pool.initial ModelImports.State.initial) imported :=
    (ModelImports.Sample.importService.trackedScript
      (.ok ModelImports.Sample.result)).reaches_of_play ModelImports.Sample.repeatedly _
  let start : Activities .unrestricted ModelImports.Sample.importService :=
    Beside.initial State.initial ModelImports.State.initial
  have idle : start.right.Quiescent := Pool.initial_quiescent _
  have left : interruptedCreate.Quiescent := by decide
  exact (Beside.lefts created idle).trans (Beside.rights importing left)

end Sample

theorem activity_refines_the_store_sampled :
    ∃ table, follow Sample.source.report (Sample.source.start []) Sample.activities.trail =
        some table ∧
      (Sample.activities.left.Quiescent → Sample.activities.right.Quiescent →
        Refines Sample.source table Sample.activities.deployments.database
          Sample.activities.imports.database) :=
  activity_refines_the_store .unrestricted ModelImports.Sample.importService rfl
    Sample.source_documented Sample.activities_reached

end CyreneReactor
