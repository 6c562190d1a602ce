import CyreneReactor.Guarantees.RemoteReadiness

namespace CyreneReactor.Remote

open Interaction Diagnostics Outcome RemoteServingExecutionPort

/-! What the remote port raises, whatever its host answers.

An URL that the host gave may be invalid, and its documents may be nested too deep to be
read; the client then raises what no operation of the port catches.
-/

def uncaught : List ExceptionKind := [.invalidUrl, .recursionError]

/-- An answer, or an exception that every operation catches. -/
def Handled (reply : HttpReply) : Prop :=
  ∀ kind, reply = .raised kind → kind ∈ [.httpError, .valueError, .typeError]

/-- What a request can come to: an answer, or an exception of the client. -/
def Replied (reply : HttpReply) : Prop :=
  ∀ kind, reply = .raised kind → kind ∈ [.httpError, .valueError, .typeError] ∨ kind ∈ uncaught

/-- One of the requests came to an exception that no operation catches. -/
def Unhandled (messages : List (HttpRequest × HttpReply)) : Prop :=
  ∃ message ∈ messages, ∃ kind ∈ uncaught, message.2 = .raised kind

/-- A failure of the serving engine. -/
def Serving (raised : Raised) : Prop := ∃ failure, raised = .serving failure

section Checks

variable {contracts : Contracts} {printer : Printer} {digest : String} {result : Members}
  {version : Option ModelVersionDocument} {reply : HttpReply}

theorem readReply_serving (handled : Handled reply) : Raises Serving (readReply printer reply) := by
  unfold readReply
  split
  · rename_i kind
    rw [if_pos]
    · exact raises_error.mpr ⟨_, rfl⟩
    · simpa [or_assoc] using handled kind rfl
  · split
    · exact raises_error.mpr ⟨_, rfl⟩
    · exact raises_ok
  · exact raises_error.mpr ⟨_, rfl⟩

/-- The classes that checking a document can raise. -/
def Checking (raised : Raised) : Prop :=
  raised = .other .keyError ∨ raised = .other .typeError ∨ raised = valueError

theorem Checking.caught {raised : Raised} (checking : Checking raised) : caught raised = true := by
  rcases checking with rfl | rfl | rfl <;> rfl

theorem subscript_checking {members : Members} {key : String} :
    Raises Checking (subscript members key) := by
  unfold subscript
  split
  · exact raises_ok
  · exact raises_error.mpr (.inl rfl)

theorem textField_invalid {value : JsonValue} :
    Raises (· = valueError) (textField value) := by
  unfold textField
  split
  · exact raises_ok
  · exact raises_error.mpr rfl

theorem canonical_invalid {members : Members} :
    Raises (· = valueError) (contracts.canonical members) := by
  unfold Contracts.canonical
  split
  · exact raises_ok
  · exact raises_error.mpr rfl

theorem artifactRef_invalid {value : JsonValue} :
    Raises (· = valueError) (contracts.artifactRef value) := by
  unfold Contracts.artifactRef
  split
  · exact raises_ok
  · exact raises_error.mpr rfl

theorem modelVersionArtifact_invalid {document : ModelVersionDocument} :
    Raises (· = valueError) (contracts.modelVersionArtifact document) := by
  unfold Contracts.modelVersionArtifact
  split
  · exact artifactRef_invalid
  · exact raises_error.mpr rfl

theorem require_invalid {holds : Bool} :
    Raises (· = valueError) (Contracts.require holds) := by
  unfold Contracts.require
  split
  · exact raises_ok
  · exact raises_error.mpr rfl

theorem validateModelVersionReadback_invalid {expected : ModelVersionDocument}
    {model : ArtifactRef} :
    Raises (· = valueError) (contracts.validateModelVersionReadback result expected model) := by
  unfold Contracts.validateModelVersionReadback
  split
  · refine canonical_invalid.bind fun _ _ => canonical_invalid.bind fun _ _ => ?_
    refine require_invalid.bind fun _ _ => modelVersionArtifact_invalid.bind fun _ _ => ?_
    refine require_invalid.bind fun _ _ => modelVersionArtifact_invalid.bind fun _ _ => ?_
    refine require_invalid.bind fun _ _ => artifactRef_invalid.bind fun _ _ => ?_
    exact require_invalid.bind fun _ _ => raises_ok
  · exact raises_error.mpr rfl

theorem canonicalExpectedModelVersion_invalid {members : Members} {model : ArtifactRef} :
    Raises (· = valueError) (contracts.canonicalExpectedModelVersion members model) := by
  unfold Contracts.canonicalExpectedModelVersion
  refine canonical_invalid.bind fun _ _ => modelVersionArtifact_invalid.bind fun _ _ => ?_
  exact require_invalid.bind fun _ _ => raises_ok

theorem identityMatches_checking :
    Raises Checking (contracts.identityMatches digest version result) := by
  have invalid : ∀ {raised : Raised}, raised = valueError → Checking raised :=
    fun same => .inr (.inr same)
  unfold Contracts.identityMatches
  cases version with
  | some version =>
      refine subscript_checking.bind fun _ _ => (artifactRef_invalid.mono fun _ => invalid).bind ?_
      intro _ _
      refine (canonical_invalid.mono fun _ => invalid).bind fun _ _ => ?_
      refine (modelVersionArtifact_invalid.mono fun _ => invalid).bind fun _ _ => ?_
      refine (require_invalid.mono fun _ => invalid).bind fun _ _ => ?_
      exact (validateModelVersionReadback_invalid.mono fun _ => invalid).bind fun _ _ => raises_ok
  | none =>
      refine subscript_checking.bind fun value _ => ?_
      cases value with
      | obj artifact => exact subscript_checking.bind fun _ _ => raises_ok
      | null | bool | int | float | str | arr => exact raises_error.mpr (.inr (.inl rfl))

end Checks

section Inspecting

variable {port : RemoteServingExecutionPort} {endpointUrl digest : String} {id : Uuid}
  {version : Option ModelVersionDocument} {result : Members} {served : JsonValue}
  {first second : HttpReply}

/-- What `inspect` catches. -/
def Caught (raised : Raised) : Prop := caught raised = true

theorem examine_caught : Raises Caught (port.examine endpointUrl digest version result) := by
  have checked : ∀ {α : Type} {outcome : Except Raised α}, Raises Checking outcome →
      Raises Caught outcome := fun raises => raises.mono fun _ checking => checking.caught
  have elsewhere : ∀ identity, Raises Checking (isElsewhere endpointUrl identity result) := by
    intro identity
    unfold isElsewhere
    split
    · exact subscript_checking.map
    · exact raises_ok
  unfold examine
  refine (checked identityMatches_checking).bind fun identity _ =>
    (checked (elsewhere identity)).bind fun far _ => ?_
  split
  · refine Raises.map ?_
    refine (checked subscript_checking).bind fun value _ => ?_
    exact (textField_invalid.mono fun raised same => by rw [same]; rfl).bind fun _ _ => raises_ok
  · unfold toProbe
    split
    · split
      · exact raises_ok
      · exact (checked subscript_checking).map
    · exact raises_error.mpr rfl

theorem hasContent_caught {answer : Members} : Raises Caught (hasContent answer) := by
  have checked : ∀ {α : Type} {outcome : Except Raised α}, Raises Checking outcome →
      Raises Caught outcome := fun raises => raises.mono fun _ checking => checking.caught
  unfold hasContent
  refine (checked subscript_checking).bind fun choices _ => ?_
  split
  · refine (checked subscript_checking).bind fun message _ => ?_
    split
    · exact raises_ok
    · exact raises_error.mpr rfl
  all_goals exact raises_error.mpr rfl

theorem judge_caught (handled : Handled second) : Raises Caught (judge served second) := by
  unfold judge
  split
  · rename_i kind
    have known : kind ∈ [.httpError, .valueError, .typeError] := handled kind rfl
    simp only [List.mem_cons, List.not_mem_nil, or_false] at known
    rcases known with rfl | rfl | rfl <;> exact raises_error.mpr rfl
  · split
    · split
      · refine Raises.map ?_
        unfold isAnswered
        split
        · exact hasContent_caught
        · exact raises_ok
      all_goals exact raises_error.mpr rfl
    · exact raises_error.mpr rfl

theorem inspected_caught (handled : Handled first) (handled' : Handled second) :
    Raises Caught (inspected port endpointUrl id digest version first second).1 := by
  have read : Raises Serving (readReply port.contracts.printer first) :=
    readReply_serving handled
  unfold inspected
  cases reads : readReply port.contracts.printer first with
  | error raised =>
      obtain ⟨failure, rfl⟩ := read raised reads
      exact raises_error.mpr rfl
  | ok result =>
      simp only
      cases examined : port.examine endpointUrl digest version result with
      | error raised => exact raises_error.mpr (examine_caught raised examined)
      | ok verdict =>
          cases verdict with
          | inl observation => exact raises_ok
          | inr served => exact judge_caught handled'

/-- Nothing leaves an inspection when everything it can meet is caught. -/
theorem recover_ok {outcome : Except Raised EngineObservation} (raises : Raises Caught outcome) :
    ∃ observation, recover outcome = .ok observation := by
  cases outcome with
  | ok observation => exact ⟨observation, rfl⟩
  | error raised =>
      have known : caught raised = true := raises raised rfl
      exact ⟨⟨false, "CONTROL_OR_INFERENCE_UNREACHABLE"⟩, if_pos known⟩

end Inspecting

section Launching

variable {port : RemoteServingExecutionPort} {replies : Nat → HttpReply} {count : Nat} {id : Uuid}
  {model : ArtifactRef} {nodeRef : Option NodeRef} {version : Option ModelVersionDocument}

theorem inspect_ok (handled : ∀ count, Handled (replies count))
    (reference endpointUrl digest : String) :
    ∃ observation, (exchange replies
      (port.inspect reference endpointUrl id digest version).run count).1 = .ok observation := by
  by_cases mine : reference = id.str
  · rw [exchange_inspect mine]
    exact recover_ok (inspected_caught (handled count) (handled (count + 1)))
  · rw [inspect, if_pos mine]
    exact ⟨_, rfl⟩

theorem acceptStart_serving {expected : Option ModelVersionDocument} {reply : HttpReply}
    (handled : Handled reply) : Raises Serving (port.acceptStart id model expected reply) := by
  have read : Raises Serving (readReply port.contracts.printer reply) :=
    readReply_serving handled
  unfold acceptStart
  cases reads : readReply port.contracts.printer reply with
  | error raised =>
      obtain ⟨failure, rfl⟩ := read raised reads
      exact raises_error.mpr ⟨_, rfl⟩
  | ok result =>
      simp only
      split
      · split
        · exact raises_error.mpr ⟨_, rfl⟩
        · split
          · exact raises_ok
          · exact raises_error.mpr ⟨_, rfl⟩
      · exact raises_error.mpr ⟨_, rfl⟩

theorem readHandle_encodes {expected : Option ModelVersionDocument} {result : Members}
    {handle : EngineHandle} (read : port.readHandle id model expected result = .ok handle) :
    handle.modelEncodes = true ∧
      handle.referencesEncode = port.contracts.printer.encodes handle.endpointUrl := by
  simp only [readHandle, bind_eq_ok, pure, Except.pure, Except.ok.injEq] at read
  obtain ⟨_, _, _, _, _, _, _, _, _, _, rfl⟩ := read
  exact ⟨rfl, rfl⟩

theorem expectedVersion_serving : Raises Serving (port.expectedVersion model nodeRef version) := by
  unfold expectedVersion
  split
  · exact raises_error.mpr ⟨_, rfl⟩
  · split
    · exact raises_ok
    · split
      · exact raises_ok
      · exact raises_error.mpr ⟨_, rfl⟩

/-- `start` raises failures of the engine only. -/
theorem start_serving (handled : ∀ count, Handled (replies count)) :
    Raises Serving (exchange replies (port.start id model nodeRef version).run count).1 := by
  rw [exchange_start]
  cases asked : port.expectedVersion model nodeRef version with
  | error raised => exact raises_error.mpr (expectedVersion_serving raised asked)
  | ok given =>
      obtain ⟨node, expected⟩ := given
      simp only
      cases accepted : port.acceptStart id model expected (replies count) with
      | error raised => exact raises_error.mpr (acceptStart_serving (handled count) raised accepted)
      | ok handle =>
          obtain ⟨observation, observed⟩ : ∃ observation, (exchange replies
              (port.inspect handle.executionRef handle.endpointUrl id
                (expectedDigest model expected) expected).run (count + 1)).1 = .ok observation :=
            inspect_ok handled _ _ _
          simp only [observed]
          change Raises Serving (if observation.ready then _ else _)
          split
          · exact raises_ok
          · exact raises_error.mpr ⟨_, rfl⟩

/-- A handle that `start` returned was accepted, and its inspection found it ready. -/
theorem start_accepted {handle : EngineHandle}
    (returned : (exchange replies (port.start id model nodeRef version).run count).1 = .ok handle) :
    ∃ expected observation, port.acceptStart id model expected (replies count) = .ok handle ∧
      (exchange replies (port.inspect handle.executionRef handle.endpointUrl id
        (expectedDigest model expected) expected).run (count + 1)).1 = .ok observation ∧
      observation.ready = true := by
  rw [exchange_start] at returned
  cases asked : port.expectedVersion model nodeRef version with
  | error raised =>
      rw [asked] at returned
      cases returned
  | ok given =>
      obtain ⟨node, expected⟩ := given
      simp only [asked] at returned
      cases accepted : port.acceptStart id model expected (replies count) with
      | error raised =>
          simp only [accepted] at returned
          cases returned
      | ok found =>
          simp only [accepted] at returned
          obtain ⟨observation, observed, last⟩ := bind_eq_ok.mp returned
          split at last
          · rename_i ready
            cases last
            exact ⟨expected, observation, accepted, observed, ready⟩
          · cases last

/-- A handle that `start` returned names the deployment and its served model, and an
endpoint at the binding's origin. -/
theorem start_returned {handle : EngineHandle}
    (returned : (exchange replies (port.start id model nodeRef version).run count).1 = .ok handle) :
    handle.executionRef = id.str ∧ handle.model = some (servedName id) ∧
      ∃ place, Url.origin port.contracts.rules handle.endpointUrl = some place ∧
        Url.origin port.contracts.rules port.controlUrl = some place := by
  obtain ⟨expected, observation, accepted, observed, ready⟩ := start_accepted returned
  have mine := (acceptStart_eq_ok accepted).1
  rw [exchange_inspect mine] at observed
  obtain ⟨_, _, _, admits, _⟩ :=
    inspected_ready_iff.mp (ready_of_recover.mp ⟨observation, observed, ready⟩)
  exact ⟨mine, (acceptStart_read accepted).2, admits.origin⟩

/-- Of a handle that `start` returned only the address may not encode. -/
theorem start_encodes {handle : EngineHandle}
    (returned : (exchange replies (port.start id model nodeRef version).run count).1 = .ok handle) :
    handle.modelEncodes = true ∧
      handle.referencesEncode = port.contracts.printer.encodes handle.endpointUrl := by
  obtain ⟨_, _, accepted, _⟩ := start_accepted returned
  obtain ⟨⟨_, read⟩, _⟩ := acceptStart_read accepted
  exact readHandle_encodes read

/-- A failed readback names the execution and the address it was asked for. -/
theorem verify_failure {reference endpointUrl : String} {served : Option String}
    {failure : ServingEngineFailure}
    (failed : (exchange replies (port.verifyServedModel id reference endpointUrl served).run
      count).1 = .error (.serving failure)) :
    failure.executionRef = some reference ∧ failure.endpointUrl = some endpointUrl ∧
      failure.referencesEncode = port.contracts.printer.encodes endpointUrl := by
  rw [verifyServedModel, exchange_ofExcept] at failed
  cases checked : port.checkEndpoint id reference endpointUrl served with
  | error raised =>
      rw [checked] at failed
      cases failed
      unfold checkEndpoint at checked
      split at checked
      · cases checked
        exact ⟨rfl, rfl, rfl⟩
      · split at checked
        · split at checked
          · cases checked
            exact ⟨rfl, rfl, rfl⟩
          · cases checked
        · cases checked
  | ok _ =>
      simp only [checked, exchange_send] at failed
      change judgeRegistry port.contracts.printer (servedName id) reference endpointUrl
        (replies count) = _ at failed
      unfold judgeRegistry at failed
      split at failed
      · cases failed
        exact ⟨rfl, rfl, rfl⟩
      · split at failed <;> cases failed
        exact ⟨rfl, rfl, rfl⟩
      · split at failed
        · split at failed
          · cases failed
            exact ⟨rfl, rfl, rfl⟩
          · split at failed <;> cases failed
            exact ⟨rfl, rfl, rfl⟩
        · cases failed
          exact ⟨rfl, rfl, rfl⟩

/-- `verify_served_model` raises failures of the engine only, for an endpoint at the
binding's origin. -/
theorem verify_serving (handled : ∀ count, Handled (replies count)) {reference endpointUrl : String}
    {served : Option String}
    (origin : ∃ place, Url.origin port.contracts.rules endpointUrl = some place ∧
      Url.origin port.contracts.rules port.controlUrl = some place) :
    Raises Serving (exchange replies
      (port.verifyServedModel id reference endpointUrl served).run count).1 := by
  obtain ⟨place, goes, also⟩ := origin
  obtain ⟨first, second, splits, alsoSplits, inside⟩ := splits_of_origin goes also
  have checked : Raises Serving (port.checkEndpoint id reference endpointUrl served) := by
    unfold checkEndpoint
    split
    · exact raises_error.mpr ⟨_, rfl⟩
    · rw [splits, alsoSplits]
      simp only
      split
      · exact raises_error.mpr ⟨_, rfl⟩
      · exact raises_ok
  rw [verifyServedModel, exchange_ofExcept]
  cases known : port.checkEndpoint id reference endpointUrl served with
  | error raised => exact raises_error.mpr (checked raised known)
  | ok _ =>
      simp only [exchange_send]
      change Raises Serving (judgeRegistry port.contracts.printer (servedName id) reference
        endpointUrl (replies count))
      have known := handled count
      unfold judgeRegistry
      split
      · exact raises_error.mpr ⟨_, rfl⟩
      · rename_i kind unmet reply
        rw [if_pos]
        · exact raises_error.mpr ⟨_, rfl⟩
        · have known := known kind reply
          simp only [List.mem_cons, List.not_mem_nil, or_false] at known ⊢
          rcases known with rfl | known
          · exact absurd rfl unmet
          · exact known.symm
      · split
        · split
          · exact raises_error.mpr ⟨_, rfl⟩
          · split
            · exact raises_ok
            · exact raises_error.mpr ⟨_, rfl⟩
        · exact raises_error.mpr ⟨_, rfl⟩

/-- What a stop makes of the readback with which it confirms a version. -/
def confirmation (port : RemoteServingExecutionPort) (digest : String)
    (document : ModelVersionDocument) (reply : HttpReply) : Except Raised Unit := do
  let artifact ← port.contracts.modelVersionArtifact document
  let expected ← port.contracts.canonicalExpectedModelVersion document.members artifact
  let current ← readReply port.contracts.printer reply
  let model ← port.contracts.modelVersionArtifact expected
  let returned ← port.contracts.validateModelVersionReadback current expected model
  if returned.id = digest then .ok ()
  else .error (.serving { detail := "MODEL_VERSION_IDENTITY_MISMATCH" })

theorem confirmation_raises {digest : String} {document : ModelVersionDocument}
    {reply : HttpReply} (handled : Handled reply) :
    Raises (fun raised => Serving raised ∨ raised = valueError)
      (confirmation port digest document reply) := by
  have invalid : ∀ {α : Type} {outcome : Except Raised α}, Raises (· = valueError) outcome →
      Raises (fun raised => Serving raised ∨ raised = valueError) outcome :=
    fun raises => raises.mono fun _ same => .inr same
  unfold confirmation
  refine (invalid modelVersionArtifact_invalid).bind fun _ _ => ?_
  refine (invalid canonicalExpectedModelVersion_invalid).bind fun _ _ => ?_
  refine ((readReply_serving handled).mono fun _ serving => .inl serving).bind fun _ _ => ?_
  refine (invalid modelVersionArtifact_invalid).bind fun _ _ => ?_
  refine (invalid validateModelVersionReadback_invalid).bind fun _ _ => ?_
  split
  · exact raises_ok
  · exact raises_error.mpr (.inl ⟨_, rfl⟩)

/-- What follows a program is exchanged after it. -/
theorem exchange_bind {α β : Type} (first : Remoting α) (next : α → Remoting β) :
    exchange replies (first >>= next).run count =
      match exchange replies first.run count with
      | (.ok value, messages) =>
          ((exchange replies (next value).run (count + messages.length)).1,
            messages ++ (exchange replies (next value).run (count + messages.length)).2)
      | (.error raised, messages) => (.error raised, messages) := by
  rw [ExceptT.run_bind]
  generalize first.run = program
  change exchange replies (program.bind _) count = _
  induction program generalizing count with
  | pure outcome => cases outcome <;> rfl
  | call request rest ih =>
      simp only [Program.bind, exchange]
      rw [ih (replies count)]
      rcases exchange replies (rest (replies count)) (count + 1) with ⟨_ | value, messages⟩
      · rfl
      · simp only [List.length_cons, List.cons_append, Nat.add_right_comm count, Nat.add_assoc]
  | acquire rest ih | release rest ih => exact ih

theorem exchange_confirmVersion (digest : String) (document : ModelVersionDocument) :
    (exchange replies (port.confirmVersion id digest (some document)).run count).1 =
      confirmation port digest document (replies count) := by
  simp only [confirmVersion, confirmation, exchange_ofExcept, RemoteServingExecutionPort.request,
    bind_assoc]
  cases port.contracts.modelVersionArtifact document with
  | error raised => rfl
  | ok artifact =>
      simp only [ok_bind]
      cases port.contracts.canonicalExpectedModelVersion document.members artifact with
      | error raised => rfl
      | ok expected =>
          simp only [exchange_send, exchange_ofExcept, ok_bind]
          cases readReply port.contracts.printer (replies count) with
          | error raised => rfl
          | ok current =>
              simp only [ok_bind]
              cases port.contracts.modelVersionArtifact expected with
              | error raised => rfl
              | ok model =>
                  simp only [ok_bind]
                  cases port.contracts.validateModelVersionReadback current expected model <;> rfl

/-- The request with which a stop releases the execution, and its check. -/
theorem release_serving (handled : ∀ count, Handled (replies count)) :
    Raises Serving (exchange replies (do
      let result ← port.request .post (executionPath id ++ "/stop") none
      Fallible.ofExcept
        (if isTrue result "released" then .ok ⟨false, "KERNEL_RESOURCES_RELEASED"⟩
          else .error (.serving { detail := "KERNEL_CLEANUP_INCOMPLETE" }) :
          Except Raised EngineObservation)).run count).1 := by
  have read : Raises Serving (readReply port.contracts.printer (replies count)) :=
    readReply_serving (handled count)
  simp only [RemoteServingExecutionPort.request, bind_assoc, exchange_send, exchange_ofExcept]
  cases reads : readReply port.contracts.printer (replies count) with
  | error raised => exact raises_error.mpr (read raised reads)
  | ok result =>
      change Raises Serving (if isTrue result "released" then _ else _)
      split
      · exact raises_ok
      · exact raises_error.mpr ⟨_, rfl⟩

/-- `stop` raises anything else than a failure of the engine exactly where it cannot
confirm the version. -/
theorem stop_serving_iff (handled : ∀ count, Handled (replies count)) {reference digest : String} :
    ¬Raises Serving (exchange replies (port.stop reference id digest version).run count).1 ↔
      reference = id.str ∧
        (exchange replies (port.confirmVersion id digest version).run count).1 =
          .error valueError := by
  by_cases mine : reference = id.str
  · rw [stop, if_neg (not_not.mpr mine), exchange_bind]
    have raises : Raises (fun raised => Serving raised ∨ raised = valueError)
        (exchange replies (port.confirmVersion id digest version).run count).1 := by
      cases version with
      | none => exact raises_ok
      | some document =>
          rw [exchange_confirmVersion]
          exact confirmation_raises (handled count)
    generalize exchange replies (port.confirmVersion id digest version).run count =
      exchanged at raises ⊢
    rcases exchanged with ⟨raised | value, messages⟩
    · rcases raises raised rfl with ⟨failure, rfl⟩ | rfl
      · simp [raises_error, Serving, valueError]
      · simp [raises_error, Serving, mine, valueError]
    · refine iff_of_false (not_not.mpr (release_serving handled)) ?_
      rintro ⟨_, refused⟩
      cases refused
  · rw [stop, if_pos mine]
    refine iff_of_false (not_not.mpr (raises_error.mpr ⟨_, rfl⟩)) fun both => mine both.1

end Launching

section Raising

variable {port : RemoteServingExecutionPort} {replies : Nat → HttpReply} {count : Nat} {id : Uuid}
  {model : ArtifactRef} {nodeRef : Option NodeRef} {version : Option ModelVersionDocument}
  {α β : Type}

/-- What is raised for a request and not caught ends the program. -/
def Ends (replies : Nat → HttpReply) (program : Remoting α) : Prop :=
  ∀ count, Unhandled (exchange replies program.run count).2 →
    ∃ kind ∈ uncaught, (exchange replies program.run count).1 = .error (.other kind)

theorem Ends.bind {first : Remoting α} {next : α → Remoting β} (ends : Ends replies first)
    (rest : ∀ value, Ends replies (next value)) : Ends replies (first >>= next) := by
  intro count unhandled
  have ended := ends count
  rw [exchange_bind] at unhandled ⊢
  generalize exchange replies first.run count = exchanged at ended unhandled ⊢
  rcases exchanged with ⟨raised | value, messages⟩
  · obtain ⟨kind, known, same⟩ := ended unhandled
    exact ⟨kind, known, congrArg Except.error (Except.error.inj same)⟩
  · obtain ⟨message, member, refused⟩ := unhandled
    rcases List.mem_append.mp member with first | second
    · obtain ⟨_, _, same⟩ := ended ⟨message, first, refused⟩
      cases same
    · exact rest value _ ⟨message, second, refused⟩

theorem ends_ofExcept (outcome : Except Raised α) :
    Ends replies (Fallible.ofExcept outcome : Remoting α) := by
  rintro count ⟨message, member, _⟩
  cases member

/-- A request whose answer is checked, where the check lets the exception through. -/
theorem ends_send {request : HttpRequest} {check : HttpReply → Except Raised α}
    (raises : ∀ kind ∈ uncaught, check (.raised kind) = .error (.other kind)) :
    Ends replies (send request >>= fun reply => Fallible.ofExcept (check reply)) := by
  rintro count ⟨message, member, kind, known, refused⟩
  rw [List.mem_singleton.mp member] at refused
  refine ⟨kind, known, ?_⟩
  change check (replies count) = _
  rw [show replies count = .raised kind from refused]
  exact raises kind known

theorem uncaught_cases {holds : ExceptionKind → Prop} (invalid : holds .invalidUrl)
    (deep : holds .recursionError) : ∀ kind ∈ uncaught, holds kind := by
  intro kind known
  simp only [uncaught, List.mem_cons, List.not_mem_nil, or_false] at known
  rcases known with rfl | rfl
  · exact invalid
  · exact deep

theorem ends_request {method : Method} {path : String} {payload : Option JsonValue} :
    Ends replies (port.request method path payload) :=
  ends_send (uncaught_cases rfl rfl)

theorem ends_inspect {reference endpointUrl digest : String} :
    Ends replies (port.inspect reference endpointUrl id digest version) := by
  unfold inspect
  split
  · exact ends_ofExcept (.ok _)
  · have tried : Ends replies (port.tryInspect endpointUrl id digest version) := by
      refine ends_request.bind fun result => (ends_ofExcept _).bind fun verdict => ?_
      rcases verdict with observation | served
      · exact ends_ofExcept (.ok _)
      · exact ends_send (uncaught_cases rfl rfl)
    intro count unhandled
    have mapped := exchange_map replies (port.tryInspect endpointUrl id digest version).run recover
      count
    change Unhandled (exchange replies ((port.tryInspect endpointUrl id digest version).run.bind
      fun outcome => .pure (recover outcome)) count).2 at unhandled
    change ∃ kind ∈ uncaught, (exchange replies ((port.tryInspect endpointUrl id digest
      version).run.bind fun outcome => .pure (recover outcome)) count).1 = _
    rw [mapped] at unhandled ⊢
    obtain ⟨kind, known, ended⟩ := tried count unhandled
    refine ⟨kind, known, ?_⟩
    simp only [ended]
    revert kind
    exact uncaught_cases (fun _ => rfl) fun _ => rfl

theorem ends_start : Ends replies (port.start id model nodeRef version) := by
  refine (ends_ofExcept _).bind fun (node, expected) => ?_
  have accepted : Ends replies (do
      let reply ← send ⟨.post, port.base ++ executionPath id, port.token,
        some (startPayload model node expected)⟩
      Fallible.ofExcept (port.acceptStart id model expected reply)) := ends_send (uncaught_cases rfl rfl)
  simp only
  rw [← bind_assoc]
  exact accepted.bind fun handle => ends_inspect.bind fun observation => ends_ofExcept _

theorem ends_verify {reference endpointUrl : String} {served : Option String} :
    Ends replies (port.verifyServedModel id reference endpointUrl served) :=
  (ends_ofExcept _).bind fun _ => ends_send (uncaught_cases rfl rfl)

theorem ends_confirmVersion {digest : String} :
    Ends replies (port.confirmVersion id digest version) := by
  cases version with
  | none => exact ends_ofExcept (.ok ())
  | some document =>
      refine (ends_ofExcept _).bind fun _ => (ends_ofExcept _).bind fun _ => ?_
      refine ends_request.bind fun _ => (ends_ofExcept _).bind fun _ => ?_
      exact (ends_ofExcept _).bind fun _ => ends_ofExcept _

theorem ends_stop {reference digest : String} :
    Ends replies (port.stop reference id digest version) := by
  unfold stop
  split
  · exact ends_ofExcept _
  · exact ends_confirmVersion.bind fun _ => ends_request.bind fun _ => ends_ofExcept _

/-- The replies with every exception turned into one that is caught. -/
def patched (replies : Nat → HttpReply) (count : Nat) : HttpReply :=
  match replies count with
  | .raised kind => .raised (if kind ∈ uncaught then .httpError else kind)
  | .answered status body => .answered status body

theorem patched_handled (replied : ∀ count, Replied (replies count)) (count : Nat) :
    Handled (patched replies count) := by
  intro kind raised
  unfold patched at raised
  split at raised
  · rename_i other answered
    cases raised
    split
    · simp
    · rename_i caught
      exact (replied count other answered).resolve_right caught
  · cases raised

/-- Where every exception is caught, nothing is changed. -/
theorem exchange_patched {program : Program httpSignature α}
    (sent : ¬Unhandled (exchange replies program count).2) :
    exchange (patched replies) program count = exchange replies program count := by
  induction program generalizing count with
  | pure value => rfl
  | call request rest ih =>
      have same : patched replies count = replies count := by
        unfold patched
        split
        · rename_i kind refused
          rw [if_neg fun known => sent ⟨_, List.mem_cons_self, kind, known, refused⟩, refused]
        · rename_i answered
          exact answered.symm
      have later : ¬Unhandled (exchange replies (rest (replies count)) (count + 1)).2 := by
        rintro ⟨message, member, refused⟩
        exact sent ⟨message, List.mem_cons_of_mem _ member, refused⟩
      simp only [exchange]
      rw [same, ih _ later]
  | acquire rest ih | release rest ih => exact ih sent

theorem raises_iff_of_handled {program : Remoting α} (ends : Ends replies program)
    (serving : Raises Serving (exchange (patched replies) program.run count).1) :
    ¬Raises Serving (exchange replies program.run count).1 ↔
      Unhandled (exchange replies program.run count).2 := by
  constructor
  · intro raises
    by_contra sent
    rw [exchange_patched sent] at serving
    exact raises serving
  · intro unhandled
    obtain ⟨kind, _, ended⟩ := ends count unhandled
    rw [ended, raises_error]
    rintro ⟨failure, same⟩
    cases same

/-- `start` raises anything else than a failure of the engine exactly where a request does. -/
theorem start_escapes_iff (replied : ∀ count, Replied (replies count)) :
    ¬Raises Serving (exchange replies (port.start id model nodeRef version).run count).1 ↔
      Unhandled (exchange replies (port.start id model nodeRef version).run count).2 :=
  raises_iff_of_handled ends_start (start_serving (patched_handled replied))

theorem verify_escapes_iff (replied : ∀ count, Replied (replies count))
    {reference endpointUrl : String} {served : Option String}
    (origin : ∃ place, Url.origin port.contracts.rules endpointUrl = some place ∧
      Url.origin port.contracts.rules port.controlUrl = some place) :
    ¬Raises Serving (exchange replies
        (port.verifyServedModel id reference endpointUrl served).run count).1 ↔
      Unhandled (exchange replies
        (port.verifyServedModel id reference endpointUrl served).run count).2 :=
  raises_iff_of_handled ends_verify (verify_serving (patched_handled replied) origin)

/-- A stop also lets through what it raises where it cannot confirm the version. -/
theorem stop_escapes_iff (replied : ∀ count, Replied (replies count))
    {reference digest : String} :
    ¬Raises Serving (exchange replies (port.stop reference id digest version).run count).1 ↔
      Unhandled (exchange replies (port.stop reference id digest version).run count).2 ∨
      reference = id.str ∧
        (exchange replies (port.confirmVersion id digest version).run count).1 =
          .error valueError := by
  constructor
  · intro raises
    by_cases unhandled :
        Unhandled (exchange replies (port.stop reference id digest version).run count).2
    · exact .inl unhandled
    · right
      rw [← exchange_patched unhandled] at raises
      obtain ⟨mine, unconfirmed⟩ := (stop_serving_iff (patched_handled replied)).mp raises
      refine ⟨mine, ?_⟩
      rw [← exchange_patched, unconfirmed]
      rintro ⟨message, member, refused⟩
      refine unhandled ⟨message, ?_, refused⟩
      rw [stop, if_neg (not_not.mpr mine), exchange_bind]
      generalize exchange replies (port.confirmVersion id digest version).run count =
        exchanged at member ⊢
      rcases exchanged with ⟨raised | value, messages⟩
      · exact member
      · exact List.mem_append_left _ member
  · rintro (unhandled | ⟨mine, unconfirmed⟩) serving
    · obtain ⟨kind, _, ended⟩ := ends_stop count unhandled
      obtain ⟨failure, same⟩ := serving _ ended
      cases same
    · have ended : (exchange replies (port.stop reference id digest version).run count).1 =
          .error valueError := by
        rw [stop, if_neg (not_not.mpr mine), exchange_bind]
        generalize exchange replies (port.confirmVersion id digest version).run count =
          exchanged at unconfirmed ⊢
        rcases exchanged with ⟨raised | value, messages⟩
        · exact congrArg Except.error (Except.error.inj unconfirmed)
        · cases unconfirmed
      obtain ⟨failure, same⟩ := serving _ ended
      cases same

end Raising

end CyreneReactor.Remote
