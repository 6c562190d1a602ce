import CyreneReactor.Interaction.Calls
import CyreneReactor.ModelImports.Script
import CyreneReactor.ModelImports.Verified
import CyreneReactor.Workspace.Auth
import CyreneReactor.Workspace.Projection
import Mathlib.Data.List.Induction

namespace CyreneReactor.ModelImports

open Interaction ImportService Workspace

/-! Which imports of a workspace can be shown to it. -/

/-- A result that pydantic has validated. -/
structure ResultValid (result : ModelImportResult) : Prop where
  artifact : ArtifactValid result.modelArtifact
  digest : isSha256 result.validation.digest = true

/-- What an import shows of its result can be shown. -/
structure OutcomeValid (modelImport : ModelImport) : Prop where
  artifact : ∀ artifact, modelImport.modelArtifact = some artifact → ArtifactValid artifact
  validation : ∀ validation, modelImport.validation = some validation →
    isSha256 validation.digest = true
  version : 1 ≤ modelImport.resourceVersion

/-- The binding is asked under the lock, and what is written is valid. -/
def writeRule : Nat → Op → Prop
  | depth, .importModel _ _ => 0 < depth
  | _, .store (.commitModelImportIntent modelImport _ _ _ _ _) => OutcomeValid modelImport
  | _, .store (.saveModelImport modelImport) => OutcomeValid modelImport
  | _, _ => True

/-- A binding answers with a valid result, or raises. -/
def validAnswer : (op : Op) → op.Answer → Prop
  | .importModel _ _, answer => ∀ result, answer = .ok result → ResultValid result
  | _, _ => True

section Programs

variable {service : ImportService} {α : Type} {depth : Nat}

abbrev Writes (depth : Nat) (program : Imports α) : Prop :=
  @Fallible.Calls importSignature _ _ writeRule validAnswer depth program

theorem pending_valid (request : CreateModelImportRequest) (id : Uuid) (now : Datetime) :
    OutcomeValid (pendingImport request id now) where
  artifact := by simp [pendingImport]
  validation := by simp [pendingImport]
  version := Nat.le_refl 1

theorem failed_valid (request : CreateModelImportRequest) (id : Uuid) (now later : Datetime)
    (error : ReactorProductError) :
    OutcomeValid (failedImport (pendingImport request id now) error later) where
  artifact := by simp [failedImport, pendingImport]
  validation := by simp [failedImport, pendingImport]
  version := Nat.le_succ 1

theorem ready_valid (pending : ModelImport) {result : ModelImportResult} (now : Datetime)
    (valid : ResultValid result) : OutcomeValid (readyImport pending result now) := by
  constructor
  · intro artifact same
    cases same
    exact valid.artifact
  · intro validation same
    cases same
    exact valid.digest
  · exact Nat.le_succ 1

theorem writes_report (activity : ActivityCall) : Writes depth (report activity) :=
  (Fallible.Calls.perform trivial).bind fun answer => .ofExcept answer

theorem writes_completeAfterPersist (taskId : String) {persist : Imports Unit}
    (writes : Writes depth persist) :
    Writes depth (service.completeAfterPersist taskId persist) := by
  rw [completeAfterPersist_eq]
  split
  · exact writes.bind fun _ => writes_report _
  · exact writes

theorem writes_transitionAndPersist (taskId : String) (state : TaskState) {persist : Imports α}
    (writes : Writes depth persist) :
    Writes depth (service.transitionAndPersist taskId state persist) := by
  rw [transitionAndPersist_eq]
  split
  · exact (writes_report _).bind fun _ => writes
  · exact writes

theorem writes_admitAndPersist (taskId : String) (state : TaskState) {persist : Imports α}
    (writes : Writes depth persist) :
    Writes depth (service.admitAndPersist taskId state persist) := by
  rw [admitAndPersist_eq]
  split
  · exact (writes_report _).bind fun _ => writes
  · exact writes

theorem writes_requireModelImport (id : Uuid) : Writes depth (requireModelImport id) := by
  apply (Fallible.Calls.perform trivial).bind
  intro found
  cases found with
  | none => exact .throw _
  | some modelImport => exact .pure _

theorem writes_requireModelImportForScope (id : Uuid) (scope : Option WorkspaceScope) :
    Writes depth (requireModelImportForScope id scope) := by
  cases scope with
  | none => exact writes_requireModelImport id
  | some scope =>
      apply (Fallible.Calls.perform trivial).bind
      intro found
      cases found with
      | none => exact .throw _
      | some modelImport => exact .pure _

theorem writes_importAndSave (engine : Engine) (request : CreateModelImportRequest) (id : Uuid)
    (now : Datetime) : Writes (depth + 1)
      (service.importAndSave engine request (pendingImport request id now)) := by
  apply Fallible.Calls.answered (Nat.succ_pos depth)
  intro answer admitted
  cases answer with
  | ok result =>
      apply (Fallible.Calls.perform trivial).bind
      intro later
      have valid := ready_valid (pendingImport request id now) later (admitted result rfl)
      exact (writes_completeAfterPersist _ (.perform valid)).bind fun _ => .pure _
  | error raised =>
      cases raised with
      | serving failure =>
          apply (Fallible.Calls.perform trivial).bind
          intro later
          have valid := failed_valid request id now later (importFailed id failure)
          exact (writes_completeAfterPersist _ (.perform valid)).bind fun _ => .throw _
      | product error => exact .throw _
      | other kind => exact .throw _

theorem writes_createUnderLock (request : CreateModelImportRequest)
    (idempotencyKey : Option String) (scope : Option WorkspaceScope) :
    Writes (depth + 1) (service.createUnderLock request idempotencyKey scope) := by
  apply (Fallible.Calls.ofExcept _).bind
  intro _
  apply (Fallible.Calls.perform trivial).bind
  intro answer
  apply (Fallible.Calls.ofExcept answer).bind
  intro replay
  cases replay with
  | some original => exact writes_requireModelImportForScope original scope
  | none =>
      apply (Fallible.Calls.ofExcept _).bind
      intro engine
      apply (Fallible.Calls.perform trivial).bind
      intro now
      apply (Fallible.Calls.perform trivial).bind
      intro id
      have intent : Writes (depth + 1)
          (service.persistIntent (pendingImport request id now) request idempotencyKey scope) :=
        (Fallible.Calls.perform (pending_valid request id now)).bind fun answer => .ofExcept answer
      apply (writes_admitAndPersist _ _ intent).bind
      intro committed
      cases committed with
      | some original =>
          exact (writes_completeAfterPersist _ (.pure ())).bind fun _ =>
            writes_requireModelImportForScope original scope
      | none =>
          exact (writes_transitionAndPersist _ _ (.pure ())).bind fun _ =>
            writes_importAndSave engine request id now

theorem writes_body (command : Command) : Writes 0 (service.body command) := by
  cases command with
  | create request idempotencyKey scope =>
      exact (Fallible.Calls.locked (writes_createUnderLock request idempotencyKey scope)).bind
        fun _ => .pure _
  | get id => exact (Fallible.Calls.locked (writes_requireModelImport id)).bind fun _ => .pure _
  | list scope =>
      cases scope with
      | none => exact .perform trivial
      | some scope => exact .perform trivial

end Programs

section Rows

variable {service : ImportService} {journal : List Event}

/-- Everything in the journal was written as the rule allows. -/
def Written (journal : List Event) : Prop :=
  ∀ event ∈ journal, ∃ depth, writeRule depth event.op

theorem outcome_of_effect {op : Op} {depth : Nat} {database : ImportDatabase}
    (allowed : writeRule depth op)
    (before : ∀ row ∈ database.modelImports.rows, OutcomeValid row) :
    ∀ row ∈ (op.effect database).modelImports.rows, OutcomeValid row := by
  cases op with
  | store op =>
      cases op with
      | commitModelImportIntent modelImport key digest idempotencyScope scope grants =>
          simp only [Op.effect, StoreOp.run]
          rcases database.commitModelImportIntent_spec modelImport key digest idempotencyScope scope
            grants with ⟨_, same⟩ | ⟨_, admits⟩
          · rw [same]
            exact before
          · rw [admits.modelImports]
            intro row member
            rcases List.mem_append.mp member with old | new
            · exact before row old
            · rw [List.mem_singleton.mp new]
              exact allowed
      | saveModelImport modelImport =>
          intro row member
          rcases Relational.Table.mem_insertOrReplace.mp member with ⟨old, _⟩ | rfl
          · exact before row old
          · exact allowed
      | resolveModelImportRequest | getUnscopedModelImport | getModelImportForWorkspace
      | listModelImports | listModelImportsForWorkspace => exact before
  | utcNow | uuid4 | importModel | activity => exact before

theorem outcome_of_written (written : Written journal) :
    ∀ row ∈ (replayed journal).modelImports.rows, OutcomeValid row := by
  induction journal using List.reverseRecOn with
  | nil => exact fun row member => by cases member
  | append_singleton earlier event ih =>
      rw [replayed_append]
      obtain ⟨depth, allowed⟩ := written event (by simp)
      exact outcome_of_effect allowed (ih fun other member => written other (by simp [member]))

/-- Every answer of a binding in the journal is valid. -/
def ResultsValid (journal : List Event) : Prop :=
  ∀ event ∈ journal, validAnswer event.op event.answer

/-- Every request in the journal pins its source with a revision that matches. -/
def RequestsValid (journal : List Event) : Prop :=
  ∀ event ∈ journal, ∀ request key scope, event.caller.command = .create request key scope →
    request.source.revision.all isRevision = true

variable {pool next : Pool service.system}

theorem journal_of_step (step : Step pool next) :
    ∃ events, State.journal next.state = State.journal pool.state ++ events := by
  cases step with
  | start command => exact ⟨[], (List.append_nil _).symm⟩
  | call here does =>
      have performs : Performs _ _ _ _ _ _ := does
      rw [performs.journal]
      split
      · exact ⟨_, rfl⟩
      · exact ⟨[], (List.append_nil _).symm⟩
  | acquire here free => exact ⟨[], (List.append_nil _).symm⟩
  | release here => exact ⟨[], (List.append_nil _).symm⟩

theorem written_of_reached (reached : Reached service pool)
    (results : ResultsValid (State.journal pool.state)) :
    Written (State.journal pool.state) ∧
      @Calling service.system writeRule validAnswer pool := by
  induction reached with
  | refl =>
      constructor
      · intro event member
        cases member
      · intro thread member
        cases member
  | @tail pool next before step ih =>
      obtain ⟨events, extended⟩ := journal_of_step step
      have earlier : ResultsValid (State.journal pool.state) := fun event member =>
        results event (by rw [extended]; exact List.mem_append_left _ member)
      obtain ⟨written, calling⟩ := ih earlier
      have bodies : ∀ command, (service.system.body command).Calls writeRule validAnswer 0
          fun _ _ => True := fun command => (writes_body command).mono fun _ _ _ => trivial
      refine ⟨?_, calling.step bodies step ?_⟩
      · rcases calling.moves step with same | ⟨caller, depth, op, answer, allowed, does⟩
        · rw [same]
          exact written
        · have performs : Performs caller (decide (0 < depth)) op pool.state answer next.state := does
          rw [performs.journal]
          split
          · intro event member
            rcases List.mem_append.mp member with old | new
            · exact written event old
            · rw [List.mem_singleton.mp new]
              exact ⟨depth, allowed⟩
          · exact written
      · intro caller depth op answer allowed does
        have performs : Performs caller (decide (0 < depth)) op pool.state answer next.state := does
        cases op with
        | importModel engine request =>
            -- the binding is asked under the lock, so the journal has its answer
            have held : 0 < depth := allowed
            have journal := performs.journal
            rw [if_pos (decide_eq_true held)] at journal
            exact results ⟨caller, .importModel engine request, answer⟩ (by rw [journal]; simp)
        | store | utcNow | uuid4 | activity => trivial

end Rows

/-- The imports of a workspace are shown where the id of their binding matches the pattern
of the projection; the parser of the grants accepts others. -/
structure WorkspaceProjected (isprintable : Char → Bool) (service : ImportService)
    (pool : Pool service.system) : Prop where
  granted : ∀ row ∈ (State.database pool.state).modelImports.rows, ∀ scope,
    (State.database pool.state).modelImportScope row.id = some scope →
      IsGrantText isprintable row.servingBindingId
  projected : ∀ row ∈ (State.database pool.state).modelImports.rows,
    (∃ shown, projectWorkspaceModelImport row = .ok shown) ↔
      isBindingId row.servingBindingId = true
  listed : ∀ scope : WorkspaceScope,
    (∃ page, projectWorkspaceModelImports ((State.database pool.state).listModelImportsForWorkspace
      scope.organizationId scope.workspaceId) = .ok page) ↔
      ∀ row ∈ (State.database pool.state).importsOf (some scope),
        isBindingId row.servingBindingId = true
  created : ∀ (index : Nat) request key (scope : WorkspaceScope) depth (modelImport : ModelImport),
    pool.threads[index]? =
      some ⟨.create request key (some scope), depth, .pure (.ok [modelImport])⟩ →
    ((∃ shown, projectWorkspaceModelImport modelImport = .ok shown) ↔
      isBindingId modelImport.servingBindingId = true)

section Projected

variable {service : ImportService} {state : State}

theorem Coherent.projectable (coherent : Coherent service state) (written : Written state.journal)
    (requests : RequestsValid state.journal) :
    ∀ row ∈ state.database.modelImports.rows, Projectable row := by
  intro row member
  have outcome := outcome_of_written written row (by rw [← coherent.replays]; exact member)
  refine ⟨?_, outcome.artifact, outcome.validation, outcome.version⟩
  obtain ⟨caller, pending, admitted, settled⟩ := coherent.tables.admitted row member
  obtain ⟨request, key, scope, command, _, recorded⟩ := coherent.tables.recorded admitted
  obtain ⟨now, asked⟩ := recorded.requested
  obtain ⟨event, journaled, rfl, _⟩ := admitted
  have pinned := requests event journaled request key scope command
  have same : pending.source = request.source := by rw [asked]; rfl
  rcases settled with rfl | settles
  · rwa [same]
  · cases settles with
    | ready result later => rwa [readyImport, same]
    | failed failure later => rwa [failedImport, same]

/-- A row is shown where its binding id matches. -/
theorem Coherent.projected (coherent : Coherent service state) (written : Written state.journal)
    (requests : RequestsValid state.journal) {row : ModelImport}
    (member : row ∈ state.database.modelImports.rows) :
    (∃ shown, projectWorkspaceModelImport row = .ok shown) ↔
      isBindingId row.servingBindingId = true := by
  rw [projectWorkspaceModelImport_ok]
  exact and_iff_right (coherent.projectable written requests row member)

end Projected

/-- In every state of every run under grants that the parser accepts, a persisted import is
shown, listed and returned exactly where its binding id matches. -/
theorem workspace_imports_projected (service : ImportService)
    (injective : Function.Injective service.sha256) {isprintable : Char → Bool}
    {loads : String → Option JsonValue} {raw : Option String}
    (accepted : parseGrantMap isprintable loads raw = .ok service.workspaceServingBindingGrants)
    {pool : Pool service.system} (reached : Reached service pool)
    (requests : RequestsValid (State.journal pool.state))
    (results : ResultsValid (State.journal pool.state)) :
    WorkspaceProjected isprintable service pool := by
  have scopes := modelImportIdempotencyScope_injective injective
  have coherent := reached.coherent scopes
  have written := (written_of_reached reached results).1
  constructor
  · intro row member scope owned
    have granted := coherent.tables.granted row member scope owned
    exact parseGrantMap_eq_ok accepted _ (List.contains_iff_mem.mp granted)
  · exact fun row member => coherent.projected written requests member
  · intro scope
    rw [projectWorkspaceModelImports_ok]
    change (∀ row ∈ (State.database pool.state).listFrom (some scope), _) ↔ _
    simp only [ImportDatabase.listFrom_eq, List.mem_reverse]
    refine forall_congr' fun row => forall_congr' fun member => ?_
    exact coherent.projected written requests (ImportDatabase.mem_importsOf.mp member).1
  · intro index request key scope depth modelImport found
    obtain ⟨since, relied, _, finished⟩ := (reached.sound scopes).verified found
    obtain ⟨later, extended⟩ := extends_of_rely relied
    have finished : Finished service ⟨index, .create request key (some scope)⟩ _ since := finished
    obtain ⟨outcome, shape, answered⟩ := finished request key (some scope) rfl
    have inside : ∀ event ∈ since.journal, event ∈ State.journal pool.state := fun event member => by
      rw [extended]
      exact List.mem_append_left later member
    cases outcome with
    | error raised => cases shape
    | ok returned =>
        simp only [Except.map, Except.ok.injEq, List.cons.injEq, and_true] at shape
        subst shape
        exact answered.coherent.projected (fun event member => written event (inside event member))
          (fun event member => requests event (inside event member))
          (answered.current modelImport rfl).1

namespace Sample

def isPrintable (char : Char) : Bool := 32 ≤ char.toNat && char.toNat < 127

def rawGrants (bindingId : String) : String :=
  "\x7b\"version\":1,\"grants\":[\x7b\"servingBindingId\":\"" ++ bindingId ++
    "\",\"organizationId\":\"org\",\"workspaceId\":\"ws\"\x7d]\x7d"

def grantDocument (bindingId : String) : JsonValue :=
  .obj [("version", .int 1), ("grants", .arr [.obj [("servingBindingId", .str bindingId),
    ("organizationId", .str "org"), ("workspaceId", .str "ws")]])]

/-- JSON decoded, of the text of one grant. -/
def loads (bindingId raw : String) : Option JsonValue :=
  if raw = rawGrants bindingId then some (grantDocument bindingId) else none

def zeros : String := "sha256:" ++ String.ofList (List.replicate 64 '0')

def publishedResult : ModelImportResult where
  modelArtifact :=
    ⟨"artifact://sha256/" ++ String.ofList (List.replicate 64 '0'), zeros, 1, .model, none⟩
  validation := ⟨true, true, true, true, none, "meta/llama", zeros, []⟩

def isValidRequest (event : Event) : Bool :=
  match event.caller.command with
  | .create request _ _ => request.source.revision.all isRevision
  | _ => true

def isValidResult : Event → Bool
  | ⟨_, .importModel _ _, answer⟩ =>
      match (answer : Except Raised ModelImportResult) with
      | .ok result => isSha256 result.modelArtifact.digest &&
          result.modelArtifact.manifestDigest.all isSha256 && isSha256 result.validation.digest
      | .error _ => true
  | _ => true

theorem requestsValid_of_all {journal : List Event} (all : journal.all isValidRequest = true) :
    RequestsValid journal := by
  intro event member request key scope command
  have valid := List.all_eq_true.mp all event member
  rwa [isValidRequest, command] at valid

theorem resultsValid_of_all {journal : List Event} (all : journal.all isValidResult = true) :
    ResultsValid journal := by
  intro event member
  obtain ⟨caller, op, answer⟩ := event
  cases op with
  | importModel engine request =>
      intro result same
      subst same
      have valid := List.all_eq_true.mp all _ member
      simp only [isValidResult, Bool.and_eq_true] at valid
      exact ⟨⟨valid.1.1, valid.1.2⟩, valid.2⟩
  | store | utcNow | uuid4 | activity => trivial

end Sample

theorem workspace_imports_projected_repeatedly :
    WorkspaceProjected Sample.isPrintable Sample.importService
      (Sample.importService.play (.ok Sample.publishedResult) Sample.repeatedly) := by
  have accepted : parseGrantMap Sample.isPrintable (Sample.loads "default")
      (some (Sample.rawGrants "default")) =
      .ok Sample.importService.workspaceServingBindingGrants := by rfl
  exact workspace_imports_projected Sample.importService Sample.sha256_injective accepted
    (Sample.importService.play_reached (.ok Sample.publishedResult) Sample.repeatedly)
    (Sample.requestsValid_of_all (by decide +kernel)) (Sample.resultsValid_of_all (by decide +kernel))

namespace Sample

/-- The binding is configured and granted under an id with a slash. -/
def slashService : ImportService where
  reactor :=
    { CyreneReactor.Sample.service with engines := some [("gpu/a", CyreneReactor.Sample.engine)] }
  workspaceServingBindingGrants := [("gpu/a", "org", "ws")]
  sha256 := sha256

def slashRequest : CreateModelImportRequest := { request with servingBindingId := "gpu/a" }

def slashPool : Pool slashService.system :=
  slashService.play (.ok publishedResult)
    [.start (.create slashRequest none (some workspace)), .run 0 100]

end Sample

/-- The import is accepted, persisted and imported, and breaks the list of its workspace. -/
theorem accepted_import_breaks_listing :
    parseGrantMap Sample.isPrintable (Sample.loads "gpu/a") (some (Sample.rawGrants "gpu/a")) =
      .ok Sample.slashService.workspaceServingBindingGrants ∧
    Reached Sample.slashService Sample.slashPool ∧
    ((State.database Sample.slashPool.state).listModelImportsForWorkspace "org" "ws").map
      (fun row => (row.servingBindingId, row.state)) = [("gpu/a", .ready)] ∧
    (projectWorkspaceModelImports ((State.database Sample.slashPool.state).listModelImportsForWorkspace
      "org" "ws")).isOk = false := by
  refine ⟨by rfl, Sample.slashService.play_reached _ _, by decide +kernel, by decide +kernel⟩

end CyreneReactor.ModelImports
