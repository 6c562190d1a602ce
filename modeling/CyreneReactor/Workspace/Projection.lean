import CyreneReactor.Data.Outcome
import CyreneReactor.ModelImports.Store

namespace CyreneReactor.Workspace

/-! What a workspace sees of its model imports.  Every projection carries that its fields
match their patterns.
-/

/-- `^[allowed]{1,bound}$` -/
def isRun (allowed : Char → Bool) (bound : Nat) (text : String) : Bool :=
  1 ≤ text.toList.length && text.toList.length ≤ bound && text.toList.all allowed

def isLowerHex (char : Char) : Bool := char.isDigit || ('a' ≤ char && char ≤ 'f')

/-- `[0-9a-f]{count}` -/
def isHexRun (count : Nat) (text : List Char) : Bool :=
  text.length == count && text.all isLowerHex

/-- `^sha256:[0-9a-f]{64}$` -/
def isSha256 (text : String) : Bool :=
  text.toList.take 7 == "sha256:".toList && isHexRun 64 (text.toList.drop 7)

/-- `^[0-9a-f]{40}$` -/
def isRevision (text : String) : Bool := isHexRun 40 text.toList

/-- `[A-Za-z0-9.+-]{1,100}` -/
def isLicense (text : String) : Bool :=
  isRun (fun char => char.isAlphanum || ['.', '+', '-'].contains char) 100 text

/-- `_SAFE_FAILURE_CODE` -/
def isFailureCode (text : String) : Bool :=
  isRun (fun char => char.isUpper || char.isDigit || char == '_') 100 text

/-- `_SAFE_DISPLAY_LABEL` -/
def isDisplayLabel (text : String) : Bool :=
  isRun (fun char => !(['/', '\\', ':'].contains char)) 200 text

/-- `^[A-Za-z0-9][A-Za-z0-9_.-]{0,199}$` -/
def isBindingId (text : String) : Bool :=
  match text.toList with
  | [] => false
  | first :: rest => first.isAlphanum && rest.length ≤ 199 &&
      rest.all fun char => char.isAlphanum || ['_', '.', '-'].contains char

/-- The letters, and what matches one when case is ignored. -/
def isFoldedLetter (char : Char) : Bool :=
  char.isAlpha || [0x130, 0x131, 0x17f, 0x212a].contains char.toNat

/-- `_SCHEME_OR_ABSOLUTE_PATH.search` -/
def isSchemeOrAbsolutePath (text : String) : Bool :=
  match text.toList with
  | [] => false
  | first :: rest =>
      first == '/' || first == '\\' || (isFoldedLetter first &&
        ((rest.dropWhile fun char => isFoldedLetter char || char.isDigit ||
            ['+', '.', '-'].contains char).take 3 == "://".toList ||
          (rest.take 1 == [':'] && (rest.drop 1).head?.any fun char => char == '/' || char == '\\')))

structure WorkspaceArtifactProjection where
  digest : String
  sizeBytes : Nat
  kind : ArtifactKind
  manifestDigest : Option String
  valid : isSha256 digest = true ∧ manifestDigest.all isSha256 = true

structure WorkspaceModelImportSourceProjection where
  kind : ModelImportSourceKind
  revision : Option String
  valid : revision.all isRevision = true

structure WorkspaceModelImportValidationProjection where
  weights : Bool
  config : Bool
  tokenizer : Bool
  chatTemplate : Bool
  license : Option String
  digest : String
  valid : license.all isLicense = true ∧ isSha256 digest = true

structure WorkspaceModelImportFailureProjection where
  code : String
  retryable : Bool
  valid : isFailureCode code = true

structure WorkspaceModelImportProjection where
  id : Uuid
  name : String
  servingBindingId : String
  source : WorkspaceModelImportSourceProjection
  state : ModelImportState
  modelArtifact : Option WorkspaceArtifactProjection
  validation : Option WorkspaceModelImportValidationProjection
  failure : Option WorkspaceModelImportFailureProjection
  createdAt : Datetime
  updatedAt : Datetime
  resourceVersion : Nat
  valid : isDisplayLabel name = true ∧ isBindingId servingBindingId = true ∧ 1 ≤ resourceVersion

/-- pydantic's `ValidationError` is a `ValueError`. -/
def validationError : Raised := .other .valueError

def artifactProjection (artifact : ArtifactRef) : Except Raised WorkspaceArtifactProjection :=
  if valid : isSha256 artifact.digest = true ∧ artifact.manifestDigest.all isSha256 = true then
    .ok ⟨artifact.digest, artifact.sizeBytes, artifact.kind, artifact.manifestDigest, valid⟩
  else .error validationError

def sourceProjection (source : ModelImportSource) :
    Except Raised WorkspaceModelImportSourceProjection :=
  if valid : source.revision.all isRevision = true then .ok ⟨source.kind, source.revision, valid⟩
  else .error validationError

/-- A license that does not match is left out. -/
def shownLicense (validation : ModelImportValidation) : Option String :=
  validation.license.filter isLicense

def validationProjection (validation : ModelImportValidation) :
    Except Raised WorkspaceModelImportValidationProjection :=
  if valid : (shownLicense validation).all isLicense = true ∧ isSha256 validation.digest = true then
    .ok ⟨validation.weights, validation.config, validation.tokenizer, validation.chatTemplate,
      shownLicense validation, validation.digest, valid⟩
  else .error validationError

def shownCode (failure : ProductFailure) : String :=
  if isFailureCode failure.code then failure.code else "MODEL_IMPORT_FAILED"

def failureProjection (failure : ProductFailure) :
    Except Raised WorkspaceModelImportFailureProjection :=
  if valid : isFailureCode (shownCode failure) = true then
    .ok ⟨shownCode failure, failure.retryable, valid⟩
  else .error validationError

def shownName (modelImport : ModelImport) : String :=
  if isSchemeOrAbsolutePath modelImport.name || !isDisplayLabel modelImport.name then
    "Model import " ++ modelImport.id.str
  else modelImport.name

/-- A projection of a value that may be absent. -/
def optionally {α β : Type} (project : α → Except Raised β) : Option α → Except Raised (Option β)
  | none => .ok none
  | some value => (project value).map some

def projectWorkspaceModelImport (modelImport : ModelImport) :
    Except Raised WorkspaceModelImportProjection := do
  let source ← sourceProjection modelImport.source
  let artifact ← optionally artifactProjection modelImport.modelArtifact
  let validation ← optionally validationProjection modelImport.validation
  let failure ← optionally failureProjection modelImport.failure
  if valid : isDisplayLabel (shownName modelImport) = true ∧
      isBindingId modelImport.servingBindingId = true ∧ 1 ≤ modelImport.resourceVersion then
    .ok
      { id := modelImport.id
        name := shownName modelImport
        servingBindingId := modelImport.servingBindingId
        source := source
        state := modelImport.state
        modelArtifact := artifact
        validation := validation
        failure := failure
        createdAt := modelImport.createdAt
        updatedAt := modelImport.updatedAt
        resourceVersion := modelImport.resourceVersion
        valid := valid }
  else .error validationError

/-- What the listing route makes of the imports of a workspace. -/
def projectWorkspaceModelImports (modelImports : List ModelImport) :
    Except Raised (List WorkspaceModelImportProjection) :=
  modelImports.mapM projectWorkspaceModelImport

/-- The pydantic models that the patterns are shared with. -/
structure ArtifactValid (artifact : ArtifactRef) : Prop where
  digest : isSha256 artifact.digest = true
  manifest : artifact.manifestDigest.all isSha256 = true

structure Projectable (modelImport : ModelImport) : Prop where
  source : modelImport.source.revision.all isRevision = true
  artifact : ∀ artifact, modelImport.modelArtifact = some artifact → ArtifactValid artifact
  validation : ∀ validation, modelImport.validation = some validation →
    isSha256 validation.digest = true
  version : 1 ≤ modelImport.resourceVersion

section Projecting

variable {modelImport : ModelImport}

theorem shownLicense_valid (validation : ModelImportValidation) :
    (shownLicense validation).all isLicense = true := by
  cases shown : shownLicense validation with
  | none => rfl
  | some license => exact (Option.filter_eq_some_iff.mp shown).2

theorem shownCode_valid (failure : ProductFailure) : isFailureCode (shownCode failure) = true := by
  unfold shownCode
  split
  · assumption
  · decide

/-- The name that stands for one that is not shown. -/
theorem isDisplayLabel_id (id : Uuid) : isDisplayLabel ("Model import " ++ id.str) = true := by
  have length : id.str.toList.length ≤ 36 := by
    simp only [Uuid.str, String.toList_append, String.toList_ofList, List.length_append,
      List.length_take, List.length_drop]
    have dash : "-".toList.length = 1 := rfl
    omega
  have intro : "Model import ".toList.length = 13 := by decide
  simp only [isDisplayLabel, isRun, String.toList_append, List.length_append, List.all_append,
    Bool.and_eq_true, decide_eq_true_eq]
  refine ⟨⟨by omega, by omega⟩, by decide, ?_⟩
  rw [List.all_eq_true]
  intro char member
  rcases Uuid.mem_str member with rfl | ⟨digit, small, rfl⟩
  · decide
  · have digits : ∀ digit < 16, (!(['/', '\\', ':'].contains (Nat.digitChar digit))) = true := by
      decide
    exact digits digit small

theorem shownName_valid (modelImport : ModelImport) :
    isDisplayLabel (shownName modelImport) = true := by
  unfold shownName
  split
  · exact isDisplayLabel_id modelImport.id
  · rename_i shown
    simp only [Bool.or_eq_true, Bool.not_eq_true', not_or, Bool.not_eq_false] at shown
    exact shown.2

theorem optionally_ok {α β : Type} {project : α → Except Raised β} {value : Option α} :
    (∃ shown, optionally project value = .ok shown) ↔
      ∀ given, value = some given → ∃ shown, project given = .ok shown := by
  cases value with
  | none => simp [optionally]
  | some given =>
      cases projected : project given <;> simp [optionally, projected, Except.map]

theorem artifactProjection_ok {artifact : ArtifactRef} :
    (∃ shown, artifactProjection artifact = .ok shown) ↔ ArtifactValid artifact := by
  unfold artifactProjection
  split
  · rename_i valid
    exact iff_of_true ⟨_, rfl⟩ ⟨valid.1, valid.2⟩
  · rename_i invalid
    refine iff_of_false ?_ fun valid => invalid ⟨valid.digest, valid.manifest⟩
    intro impossible
    obtain ⟨_, impossible⟩ := impossible
    cases impossible

theorem sourceProjection_ok {source : ModelImportSource} :
    (∃ shown, sourceProjection source = .ok shown) ↔ source.revision.all isRevision = true := by
  unfold sourceProjection
  split <;> simp [*]

theorem validationProjection_ok {validation : ModelImportValidation} :
    (∃ shown, validationProjection validation = .ok shown) ↔
      isSha256 validation.digest = true := by
  unfold validationProjection
  split
  · rename_i valid
    exact iff_of_true ⟨_, rfl⟩ valid.2
  · rename_i invalid
    refine iff_of_false ?_ fun digest => invalid ⟨shownLicense_valid validation, digest⟩
    intro impossible
    obtain ⟨_, impossible⟩ := impossible
    cases impossible

theorem failureProjection_ok (failure : ProductFailure) :
    ∃ shown, failureProjection failure = .ok shown :=
  ⟨_, dif_pos (shownCode_valid failure)⟩

/-- Name, license and failure code never stand in the way of a projection. -/
theorem projectWorkspaceModelImport_ok :
    (∃ shown, projectWorkspaceModelImport modelImport = .ok shown) ↔
      Projectable modelImport ∧ isBindingId modelImport.servingBindingId = true := by
  constructor
  · intro projected
    simp only [projectWorkspaceModelImport, Outcome.bind_ends] at projected
    obtain ⟨source, sourced, artifact, shown, validation, checked, failure, _, last⟩ := projected
    refine ⟨⟨sourceProjection_ok.mp ⟨source, sourced⟩, ?_, ?_, ?_⟩, ?_⟩
    · intro given known
      exact artifactProjection_ok.mp (optionally_ok.mp ⟨artifact, shown⟩ given known)
    · intro given known
      exact validationProjection_ok.mp (optionally_ok.mp ⟨validation, checked⟩ given known)
    all_goals
      split at last
      · rename_i valid
        first | exact valid.2.2 | exact valid.2.1
      · obtain ⟨_, impossible⟩ := last
        cases impossible
  · intro both
    obtain ⟨projectable, binding⟩ := both
    obtain ⟨source, sourced⟩ := sourceProjection_ok.mpr projectable.source
    obtain ⟨artifact, shown⟩ := optionally_ok.mpr fun given known =>
      artifactProjection_ok.mpr (projectable.artifact given known)
    obtain ⟨validation, checked⟩ := optionally_ok.mpr fun given known =>
      validationProjection_ok.mpr (projectable.validation given known)
    obtain ⟨failure, failed⟩ := optionally_ok.mpr
      fun given (_ : modelImport.failure = some given) => failureProjection_ok given
    simp only [projectWorkspaceModelImport, Outcome.bind_ends]
    refine ⟨source, sourced, artifact, shown, validation, checked, failure, failed, ?_⟩
    rw [dif_pos ⟨shownName_valid modelImport, binding, projectable.version⟩]
    exact ⟨_, rfl⟩

/-- One import that cannot be projected breaks the list. -/
theorem projectWorkspaceModelImports_ok {modelImports : List ModelImport} :
    (∃ page, projectWorkspaceModelImports modelImports = .ok page) ↔
      ∀ modelImport ∈ modelImports, ∃ shown, projectWorkspaceModelImport modelImport = .ok shown := by
  unfold projectWorkspaceModelImports
  induction modelImports with
  | nil => simp [pure, Except.pure]
  | cons first rest ih =>
      rw [List.mapM_cons, Outcome.bind_ends, List.forall_mem_cons, ← ih]
      constructor
      · intro listed
        obtain ⟨shown, projected, page, others⟩ := listed
        obtain ⟨items, mapped, _⟩ := Outcome.bind_ends.mp ⟨page, others⟩
        exact ⟨⟨shown, projected⟩, items, mapped⟩
      · intro both
        obtain ⟨⟨shown, projected⟩, items, mapped⟩ := both
        exact ⟨shown, projected, shown :: items, by rw [mapped]; rfl⟩

end Projecting

end CyreneReactor.Workspace
