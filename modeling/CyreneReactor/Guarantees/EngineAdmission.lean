import CyreneReactor.Guarantees.Connection
import CyreneReactor.Interaction.Snapshot
import CyreneReactor.PackageRuntime.Admission

namespace CyreneReactor.PackageRuntime

open Interaction Remote

/-! An admitted engine is of a runtime that stayed the same while it was looked at.

The status is read twice and the authority is read twice, around everything else.
-/

section Checks

variable {bindingId installationId packageVersion controlUrl : String} {status latest : Document}
  {port : Nat} {generation : Int}

theorem requiredString_text {document : Document} {field value : String}
    (found : requiredString document field = .ok value) : text? document field = some value := by
  unfold requiredString at found
  split at found
  · cases found
  · rename_i present
    split at found
    · cases found
    · cases found
      exact present

def loopback (port : Nat) : String := "http://127.0.0.1:" ++ toString port

theorem loopback_def (port : Nat) : loopback port = "http://127.0.0.1:" ++ toString port := rfl

theorem digits_of_port (port : Nat) : (toString port).toList = Nat.toDigits 10 port := by
  rw [Nat.toString_eq_ofList_toDigits, String.toList_ofList]

theorem decimal_of_port (port : Nat) : decimal? (Nat.toDigits 10 port) = some port := by
  have nonempty : (Nat.toDigits 10 port).isEmpty = false := by
    simp [Nat.toDigits_ne_nil]
  have digits : (Nat.toDigits 10 port).all Char.isDigit = true := by
    rw [List.all_eq_true]
    exact fun ch member => Nat.isDigit_of_mem_toDigits (by decide) (by decide) member
  have value := Nat.ofDigitChars_ten_toDigits (n := port)
  rw [Nat.ofDigitChars_eq_foldl] at value
  simp only [decimal?, nonempty, digits, Bool.not_true, Bool.or_false, Bool.false_eq_true,
    ↓reduceIte]
  exact congrArg some value

/-- The references that name a port of the loopback interface, each port in one way. -/
theorem controlUrl_iff {connectionRef : String} :
    controlUrlFromConnectionRef connectionRef = some controlUrl ↔
      ∃ port, 1 ≤ port ∧ port ≤ 65535 ∧ connectionRef = connectionRefPrefix ++ toString port ∧
        controlUrl = loopback port := by
  constructor
  · intro canonical
    unfold controlUrlFromConnectionRef at canonical
    simp only at canonical
    split at canonical
    · split at canonical
      · cases canonical
      · rename_i port _
        split at canonical
        · rename_i valid
          cases canonical
          exact ⟨port, valid.1, valid.2.1, valid.2.2, rfl⟩
        · cases canonical
    · cases canonical
  · rintro ⟨port, low, high, rfl, rfl⟩
    simp only [controlUrlFromConnectionRef, String.toList_append, List.drop_left, digits_of_port,
      decimal_of_port]
    simp [low, high, loopback_def]

/-- A status of a running runtime, and where it can be reached. -/
structure Running (bindingId installationId : String) (generation : Int) (port : Nat)
    (status : Document) : Prop where
  binding : reads status "binding_id" bindingId = true
  installation : text? status "installation_id" = some installationId
  identified : isBindingId installationId = true
  state : reads status "state" "RUNNING" = true
  numbered : member? status "generation" = some (.int generation)
  positive : 0 < generation
  connection : text? status "connection_ref" = some (connectionRefPrefix ++ toString port)
  low : 1 ≤ port
  high : port ≤ 65535

theorem isPositiveInt_iff {value : Option JsonValue} :
    isPositiveInt value = true ↔ ∃ generation, value = some (.int generation) ∧ 0 < generation := by
  unfold isPositiveInt
  split
  · simp
  · rename_i other
    constructor
    · intro impossible
      cases impossible
    · rintro ⟨generation, rfl, _⟩
      exact absurd rfl (other generation)

theorem validateRuntimeStatus_iff :
    validateRuntimeStatus status bindingId = .ok installationId ↔
      requiredString status "installation_id" = .ok installationId ∧
        reads status "binding_id" bindingId = true ∧ reads status "state" "RUNNING" = true ∧
        isBindingId installationId = true ∧
        isPositiveInt (member? status "generation") = true ∧
        ∃ connectionRef, requiredString status "connection_ref" = .ok connectionRef := by
  unfold validateRuntimeStatus
  rw [Outcome.bind_eq_ok]
  constructor
  · rintro ⟨found, identity, valid⟩
    split at valid
    · cases valid
    · rename_i passes
      simp only [not_or, Bool.not_eq_false] at passes
      obtain ⟨connectionRef, reference, same⟩ := Outcome.bind_eq_ok.mp valid
      cases same
      exact ⟨identity, passes.1, passes.2.1, passes.2.2.1, passes.2.2.2, connectionRef, reference⟩
  · rintro ⟨identity, binding, running, isId, positive, connectionRef, reference⟩
    refine ⟨installationId, identity, ?_⟩
    simp [binding, running, isId, positive, reference, bind, Except.bind, pure, Except.pure]

theorem controlUrlOf_iff :
    controlUrlOf status = .ok controlUrl ↔ ∃ connectionRef,
      requiredString status "connection_ref" = .ok connectionRef ∧
        controlUrlFromConnectionRef connectionRef = some controlUrl := by
  unfold controlUrlOf
  split
  · rename_i refused
    simp [refused]
  · rename_i connectionRef present
    simp only [present, Except.ok.injEq, exists_eq_left']
    split <;> rename_i canonical <;> simp [canonical]

/-- The checks of the first status. -/
theorem running_iff :
    (validateRuntimeStatus status bindingId = .ok installationId ∧
      controlUrlOf status = .ok controlUrl) ↔
      ∃ generation port, Running bindingId installationId generation port status ∧
        controlUrl = loopback port := by
  rw [validateRuntimeStatus_iff, controlUrlOf_iff]
  constructor
  · rintro ⟨⟨identity, binding, running, isId, positive, _⟩, connectionRef, reference, canonical⟩
    obtain ⟨generation, known, some⟩ := isPositiveInt_iff.mp positive
    obtain ⟨port, low, high, rfl, same⟩ := controlUrl_iff.mp canonical
    exact ⟨generation, port, ⟨binding, requiredString_text identity, isId, running, known, some,
      requiredString_text reference, low, high⟩, same⟩
  · rintro ⟨generation, port, running, rfl⟩
    have canonical : controlUrlFromConnectionRef (connectionRefPrefix ++ toString port) =
        some (loopback port) := controlUrl_iff.mpr ⟨port, running.low, running.high, rfl, rfl⟩
    have reference := requiredString_of_connectionRef running.connection canonical
    have identity := requiredString_of_bindingId running.installation running.identified
    have positive := isPositiveInt_iff.mpr ⟨_, running.numbered, running.positive⟩
    exact ⟨⟨identity, running.binding, running.state, running.identified, positive, _, reference⟩,
      _, reference, canonical⟩

theorem pyEq_int {left right : Int} : pyEq (.int left) (.int right) = true ↔ left = right := by
  simp [pyEq, number?]

theorem pyEq_str {left right : String} : pyEq (.str left) (.str right) = true ↔ left = right := by
  simp [pyEq]

theorem member_of_text {document : Document} {field value : String}
    (present : text? document field = some value) : member? document field = some (.str value) := by
  unfold text? at present
  split at present
  · rename_i found here
    cases present
    exact here
  · cases present

theorem reads_of_text {document : Document} {field value : String}
    (present : text? document field = some value) : reads document field value = true := by
  simp [reads, member_of_text present]

/-- The checks of the second status: it says what the first one said. -/
theorem checkUnchanged_iff (running : Running bindingId installationId generation port status) :
    checkUnchanged bindingId installationId status latest = .ok () ↔
      Running bindingId installationId generation port latest := by
  unfold checkUnchanged
  constructor
  · intro unchanged
    split at unchanged
    · cases unchanged
    · rename_i other valid
      split at unchanged
      · cases unchanged
      · rename_i agreed
        simp only [not_or, Bool.not_eq_false] at agreed
        obtain ⟨installation, generations, connections⟩ := agreed
        obtain ⟨identity, binding, state, isId, positive, connectionRef, reference⟩ :=
          validateRuntimeStatus_iff.mp valid
        obtain ⟨now, known, some⟩ := isPositiveInt_iff.mp positive
        have connection := requiredString_text reference
        unfold agrees at generations connections
        rw [known, running.numbered] at generations
        rw [member_of_text connection, member_of_text running.connection] at connections
        have sameGeneration := pyEq_int.mp generations
        have sameConnection := pyEq_str.mp connections
        subst sameGeneration sameConnection
        exact ⟨binding, text_of_reads installation, running.identified, state, known, some,
          connection, running.low, running.high⟩
  · intro still
    have valid := (running_iff.mpr ⟨generation, port, still, rfl⟩).1
    have generations : agrees latest status "generation" = true := by
      simp [agrees, still.numbered, running.numbered, pyEq_int]
    have connections : agrees latest status "connection_ref" = true := by
      simp [agrees, member_of_text still.connection, member_of_text running.connection, pyEq_str]
    simp [valid, reads_of_text still.installation, generations, connections]

/-- An authority of the expected protocol, with capabilities and a positive generation. -/
structure Authorised (generation : Int) (reply : AuthorityReply) (authority : Document)
    (capabilities : List JsonValue) : Prop where
  document : reply.document = .obj authority
  platform : reads authority "authority" "platform_package_runtime" = true
  protocol : reads authority "protocol_version" controlProtocol = true
  catalog : member? authority "catalog_generation" = some (.int generation)
  client : reply.catalogGeneration = some generation
  positive : 0 < generation
  capable : member? authority "capabilities" = some (.arr capabilities)
  some : capabilities ≠ []
  texts : capabilities.all isString = true

theorem checkAuthority_iff {answer : Option AuthorityReply} :
    checkAuthority answer = .ok generation ↔ ∃ reply authority capabilities,
      answer = some reply ∧ Authorised generation reply authority capabilities := by
  constructor
  · intro checked
    unfold checkAuthority at checked
    split at checked
    · cases checked
    · rename_i authority catalogGeneration
      split at checked
      · cases checked
      · rename_i expected
        simp only [not_or, Bool.not_eq_false] at expected
        split at checked
        · rename_i found capabilities catalog capable
          split at checked
          · cases checked
          · rename_i complete
            cases checked
            simp only [not_or, not_le, ne_eq, not_not, Bool.not_eq_true, Bool.not_eq_false]
              at complete
            obtain ⟨positive, client, some, texts⟩ := complete
            exact ⟨_, authority, capabilities, rfl, rfl, expected.1, expected.2, catalog, client,
              positive, capable, by simpa using some, texts⟩
        · cases checked
    · cases checked
  · rintro ⟨⟨document, catalogGeneration⟩, authority, capabilities, rfl, authorised⟩
    obtain ⟨rfl, platform, protocol, catalog, rfl, positive, capable, some, texts⟩ := authorised
    have above : ¬ generation ≤ 0 := not_le.mpr positive
    simp [checkAuthority, platform, protocol, catalog, capable, above, some, texts]

theorem checkObject_iff {refusal : String} {answer : Option JsonValue} {document : Document} :
    checkObject refusal answer = .ok document ↔ answer = some (.obj document) := by
  unfold checkObject
  split
  · simp
  · simp
  · rename_i other
    constructor
    · intro impossible
      cases impossible
    · intro same
      cases same
      exact absurd rfl (other document)

/-- The record of an installed and verified package of the runtime. -/
structure Installed (installationId packageVersion : String) (installation : Document) : Prop where
  named : text? installation "package_version" = some packageVersion
  versioned : isPackageVersion packageVersion = true
  record : isRecordVersion (member? installation "record_version") = true
  identity : reads installation "installation_id" installationId = true
  package : reads installation "package_id" packageId = true
  state : reads installation "state" "INSTALLED" = true
  capable : isCapable (member? installation "capabilities") = true
  verified : isVerified (member? installation "verification") = true
  artifact : isSha256 (member? installation "artifact_digest") = true
  archive : isSha256 (member? installation "archive_digest") = true

theorem requiredString_of_packageVersion {installation : Document} {field : String}
    (present : text? installation field = some packageVersion)
    (versioned : isPackageVersion packageVersion = true) :
    requiredString installation field = .ok packageVersion := by
  simp only [isPackageVersion, Bool.and_eq_true, decide_eq_true_eq, List.all_eq_true] at versioned
  obtain ⟨⟨some, bound⟩, characters⟩ := versioned
  apply requiredString_ok present
  · intro empty
    simp [empty] at some
  · omega
  · intro character member
    by_contra control
    have outside := not_control (Bool.not_eq_false _ ▸ control)
    have inside := characters character member
    simp only [Bool.or_eq_false_iff] at outside
    have plus : character = '+' := by simpa [outside] using inside
    subst plus
    exact control (by decide)

theorem validateInstallation_iff {installation : Document} :
    validateInstallation installation installationId = .ok packageVersion ↔
      Installed installationId packageVersion installation := by
  unfold validateInstallation
  constructor
  · intro valid
    split at valid
    · cases valid
    · rename_i found named
      split at valid
      · cases valid
      · rename_i passes
        cases valid
        simp only [not_or, Bool.not_eq_false] at passes
        obtain ⟨record, identity, package, versioned, state, capable, verified, artifact, archive⟩ :=
          passes
        exact ⟨requiredString_text named, versioned, record, identity, package, state, capable,
          verified, artifact, archive⟩
  · intro installed
    rw [requiredString_of_packageVersion installed.named installed.versioned]
    simp [installed.versioned, installed.record, installed.identity, installed.package,
      installed.state, installed.capable, installed.verified, installed.artifact, installed.archive]

/-- A regular file of the process's user or of root, readable to its owner alone. -/
structure Protected (euid : Nat) (token : String) (file : CredentialFile) : Prop where
  regular : file.regular = true
  permissions : file.permissions ∈ [0o400, 0o600]
  owner : file.uid ∈ [euid, 0]
  content : ∃ text, file.text = some text ∧ token = String.ofList (PyText.strip text.toList) ∧
    32 ≤ (PyText.strip text.toList).length

theorem readOwnerProtectedCredential_iff {euid : Nat} {token : String}
    {answer : Option CredentialFile} :
    readOwnerProtectedCredential euid answer = .ok token ↔
      ∃ file, answer = some file ∧ Protected euid token file := by
  constructor
  · intro read
    unfold readOwnerProtectedCredential at read
    split at read
    · cases read
    · rename_i file
      split at read
      · cases read
      · rename_i guarded
        simp only [not_or, Bool.not_eq_false, not_not] at guarded
        split at read
        · cases read
        · rename_i text content
          simp only at read
          split at read
          · cases read
          · rename_i long
            cases read
            exact ⟨file, rfl, guarded.1, guarded.2.1, guarded.2.2, text, content, rfl,
              Nat.le_of_not_lt long⟩
  · rintro ⟨file, rfl, regular, permissions, owner, text, content, rfl, long⟩
    have enough : ¬ (PyText.strip text.toList).length < 32 := Nat.not_lt.mpr long
    simp only [readOwnerProtectedCredential, regular, permissions, owner, content, enough,
      not_true_eq_false, Bool.true_eq_false, or_self, ↓reduceIte]

theorem buildEngine_iff {contracts : Contracts} {euid : Nat} {answer : Option CredentialFile}
    {engine : RemoteServingExecutionPort} :
    buildEngine contracts euid controlUrl answer = .ok engine ↔
      (∃ file, answer = some file ∧ Protected euid engine.token file) ∧
        engine.contracts = contracts ∧ engine.controlUrl = controlUrl := by
  rw [← readOwnerProtectedCredential_iff]
  unfold buildEngine RemoteServingExecutionPort.create
  cases readOwnerProtectedCredential euid answer with
  | error raised => simp
  | ok token =>
      constructor
      · intro built
        simp only at built
        split at built
        · cases built
        · rename_i created
          split at created
          · cases created
          · cases created
            cases built
            exact ⟨rfl, rfl, rfl⟩
      · rintro ⟨same, rfl, rfl⟩
        cases same
        simp only
        split
        · rename_i refused
          split at refused
          · rename_i admitted
            rw [engine.admitted] at admitted
            cases admitted
          · cases refused
        · rename_i created
          split at created
          · cases created
          · cases created
            rfl

/-- A reply that says of the endpoint what its installation record says. -/
def Describes (packageVersion : String) (reply : HttpReply) : Prop :=
  ∃ status metadata, reply = .answered status (some (.obj metadata)) ∧
    ¬ (400 ≤ status ∧ status < 600) ∧
    pyEq (.obj metadata) (.obj (expectedMetadata packageVersion)) = true

theorem checkMetadata_iff {engine : RemoteServingExecutionPort} {reply : HttpReply} :
    checkMetadata engine packageVersion reply = .ok () ↔ Describes packageVersion reply := by
  constructor
  · intro checked
    unfold checkMetadata at checked
    split at checked
    · cases checked
    · rename_i metadata read
      split at checked
      · cases checked
      · rename_i same
        unfold readReply at read
        split at read
        · split at read <;> cases read
        · rename_i status body
          split at read
          · cases read
          · rename_i accepted
            cases read
            exact ⟨status, metadata, rfl, accepted, Bool.not_eq_false _ ▸ same⟩
        · cases read
  · rintro ⟨status, metadata, rfl, accepted, same⟩
    simp [checkMetadata, readReply, accepted, same]

end Checks

structure Findings where
  path : String
  reply : AuthorityReply
  catalogGeneration : Int
  status : Document
  installationId : String
  generation : Int
  port : Nat
  installation : Document
  packageVersion : String
  file : CredentialFile
  engine : RemoteServingExecutionPort

def AuthorisedBy (generation : Int) (reply : AuthorityReply) : Prop :=
  ∃ authority capabilities, Authorised generation reply authority capabilities

structure Findings.Sound (findings : Findings) (admission : Admission) : Prop where
  binding : isBindingId admission.bindingId = true
  configured : admission.credentialFile = some findings.path
  client : admission.clientSource = some sourceId
  authorised : AuthorisedBy findings.catalogGeneration findings.reply
  running : Running admission.bindingId findings.installationId findings.generation findings.port
    findings.status
  installed : Installed findings.installationId findings.packageVersion findings.installation
  owned : Protected admission.euid findings.engine.token findings.file
  contracts : findings.engine.contracts = admission.contracts
  url : findings.engine.controlUrl = loopback findings.port

def answered (inquiry : Inquiry) (answer : inquiry.Answer) : Answered inquiries :=
  ⟨inquiry, answer⟩

namespace Findings

variable (findings : Findings) (admission : Admission)

def request : HttpRequest :=
  ⟨.get, loopback findings.port ++ "/metadata", findings.engine.token, none⟩

/-- The inquiries that found it. -/
def past : Past inquiries :=
  [answered .authority (some findings.reply),
    answered (.runtimeStatus admission.bindingId) (some (.obj findings.status)),
    answered (.getInstallation findings.installationId) (some (.obj findings.installation)),
    answered (.openCredential findings.path) (some findings.file)]

/-- The inquiries of an admission that ends with the engine. -/
def whole (metadata : HttpReply) (latest : Document) (again : AuthorityReply) : Past inquiries :=
  findings.past admission ++
    [answered (.send findings.request) metadata,
      answered (.runtimeStatus admission.bindingId) (some (.obj latest)),
      answered .authority (some again)]

end Findings

section Requests

/-- The URL of a port ends with a digit. -/
theorem rstrip_loopback (port : Nat) : Url.rstrip (loopback port) = loopback port := by
  have digits : (loopback port).toList.reverse =
      (Nat.toDigits 10 port).reverse ++ "http://127.0.0.1:".toList.reverse := by
    rw [loopback_def, String.toList_append, digits_of_port, List.reverse_append]
  obtain ⟨initial, digit, split⟩ := List.eq_nil_or_concat (Nat.toDigits 10 port)
    |>.resolve_left Nat.toDigits_ne_nil
  have plain : digit.isDigit = true :=
    Nat.isDigit_of_mem_toDigits (b := 10) (n := port) (by decide) (by decide) (by simp [split])
  have kept : (digit == '/') = false := by
    rw [beq_eq_false_iff_ne]
    intro slash
    rw [slash] at plain
    exact absurd plain (by decide)
  unfold Url.rstrip
  rw [digits, split]
  simp only [List.concat_eq_append, List.reverse_append, List.reverse_cons, List.reverse_nil,
    List.nil_append, List.cons_append, List.dropWhile_cons, kept, Bool.false_eq_true, ↓reduceIte]
  rw [← String.toList_inj, String.toList_ofList, loopback_def, String.toList_append, digits_of_port,
    split]
  simp

theorem Findings.Sound.request {findings : Findings} {admission : Admission}
    (sound : findings.Sound admission) :
    Admission.metadataRequest findings.engine = findings.request := by
  simp [Admission.metadataRequest, Findings.request, RemoteServingExecutionPort.base, sound.url,
    rstrip_loopback]

end Requests

section Program

variable {admission : Admission} {path : String}

/-- The endpoint is asked once all else was found, and with the token alone. -/
def Guarded (admission : Admission) (past : Past inquiries) : Inquiry → Prop
  | .send request => ∃ findings : Findings, findings.Sound admission ∧
      past = findings.past admission ∧ request = findings.request
  | _ => True

theorem checkConfiguration_iff : admission.checkConfiguration = .ok path ↔
    isBindingId admission.bindingId = true ∧ admission.credentialFile = some path ∧
      admission.clientSource = some sourceId := by
  unfold Admission.checkConfiguration
  by_cases binding : isBindingId admission.bindingId = true
  · cases configured : admission.credentialFile with
    | none => simp [binding]
    | some file =>
        by_cases client : admission.clientSource = some sourceId <;> simp [binding, client]
  · simp [binding]

theorem packageRuntimeEngine_guarded :
    admission.packageRuntimeEngine.run.Obeys (Guarded admission) (fun _ _ => True)
      (fun _ _ => True) [] := by
  unfold Admission.packageRuntimeEngine
  apply Fallible.obeys_ofExcept (fun _ _ => trivial)
  intro path configured
  obtain ⟨binding, configured, client⟩ := checkConfiguration_iff.mp configured
  apply Fallible.obeys_inquiry trivial
  intro authority catalogGeneration checked
  obtain ⟨reply, document, capabilities, rfl, authorised⟩ := checkAuthority_iff.mp checked
  apply Fallible.obeys_inquiry trivial
  intro statusAnswer status checked
  obtain rfl := checkObject_iff.mp checked
  apply Fallible.obeys_ofExcept (fun _ _ => trivial)
  intro installationId valid
  apply Fallible.obeys_inquiry trivial
  intro installationAnswer installation checked
  obtain rfl := checkObject_iff.mp checked
  apply Fallible.obeys_ofExcept (fun _ _ => trivial)
  intro packageVersion checked
  have installed := validateInstallation_iff.mp checked
  apply Fallible.obeys_ofExcept (fun _ _ => trivial)
  intro controlUrl canonical
  obtain ⟨generation, port, running, rfl⟩ := running_iff.mp ⟨valid, canonical⟩
  apply Fallible.obeys_inquiry trivial
  intro fileAnswer engine built
  obtain ⟨⟨file, rfl, owned⟩, contracts, url⟩ := buildEngine_iff.mp built
  have sound : Findings.Sound ⟨path, reply, catalogGeneration, status, installationId, generation,
      port, installation, packageVersion, file, engine⟩ admission :=
    ⟨binding, configured, client, ⟨document, capabilities, authorised⟩, running, installed, owned,
      contracts, url⟩
  apply Fallible.obeys_inquiry ⟨_, sound, rfl, sound.request⟩
  intro metadata described checked
  apply Fallible.obeys_inquiry trivial
  intro latestAnswer latest checked
  apply Fallible.obeys_ofExcept (fun _ _ => trivial)
  intro unchanged checked
  apply Fallible.obeys_inquiry trivial
  intro again latestGeneration checked
  apply Fallible.obeys_ofExcept (fun _ _ => trivial)
  intro same checked
  trivial

theorem packageRuntimeEngine_traces {past : Past inquiries} {engine : RemoteServingExecutionPort} :
    admission.packageRuntimeEngine.run.Traces past (.ok engine) ↔
      ∃ (findings : Findings) (metadata : HttpReply) (latest : Document) (again : AuthorityReply),
        findings.Sound admission ∧ findings.engine = engine ∧
        Describes findings.packageVersion metadata ∧
        Running admission.bindingId findings.installationId findings.generation findings.port
          latest ∧
        AuthorisedBy findings.catalogGeneration again ∧
        past = findings.whole admission metadata latest again := by
  unfold Admission.packageRuntimeEngine
  constructor
  · intro traced
    replace traced := Fallible.traces_check.mp traced
    obtain ⟨path, configured, traced⟩ := traced
    obtain ⟨binding, configured, client⟩ := checkConfiguration_iff.mp configured
    replace traced := Fallible.traces_inquiry.mp traced
    obtain ⟨authority, catalogGeneration, _, rfl, checked, traced⟩ := traced
    obtain ⟨reply, document, capabilities, rfl, authorised⟩ := checkAuthority_iff.mp checked
    replace traced := Fallible.traces_inquiry.mp traced
    obtain ⟨statusAnswer, status, _, rfl, checked, traced⟩ := traced
    obtain rfl := checkObject_iff.mp checked
    replace traced := Fallible.traces_check.mp traced
    obtain ⟨installationId, valid, traced⟩ := traced
    replace traced := Fallible.traces_inquiry.mp traced
    obtain ⟨installationAnswer, installation, _, rfl, checked, traced⟩ := traced
    obtain rfl := checkObject_iff.mp checked
    replace traced := Fallible.traces_check.mp traced
    obtain ⟨packageVersion, checked, traced⟩ := traced
    have installed := validateInstallation_iff.mp checked
    replace traced := Fallible.traces_check.mp traced
    obtain ⟨controlUrl, canonical, traced⟩ := traced
    obtain ⟨generation, port, running, rfl⟩ := running_iff.mp ⟨valid, canonical⟩
    replace traced := Fallible.traces_inquiry.mp traced
    obtain ⟨fileAnswer, built, _, rfl, checked, traced⟩ := traced
    obtain ⟨⟨file, rfl, owned⟩, contracts, url⟩ := buildEngine_iff.mp checked
    have sound : Findings.Sound ⟨path, reply, catalogGeneration, status, installationId,
        generation, port, installation, packageVersion, file, built⟩ admission :=
      ⟨binding, configured, client, ⟨document, capabilities, authorised⟩, running, installed,
        owned, contracts, url⟩
    replace traced := Fallible.traces_inquiry.mp traced
    obtain ⟨metadata, _, _, rfl, checked, traced⟩ := traced
    have described := checkMetadata_iff.mp checked
    replace traced := Fallible.traces_inquiry.mp traced
    obtain ⟨latestAnswer, latest, _, rfl, checked, traced⟩ := traced
    obtain rfl := checkObject_iff.mp checked
    replace traced := Fallible.traces_check.mp traced
    obtain ⟨_, unchanged, traced⟩ := traced
    have still := (checkUnchanged_iff running).mp unchanged
    replace traced := Fallible.traces_inquiry.mp traced
    obtain ⟨againAnswer, latestGeneration, _, rfl, checked, traced⟩ := traced
    obtain ⟨again, document', capabilities', rfl, authorised'⟩ := checkAuthority_iff.mp checked
    replace traced := Fallible.traces_check.mp traced
    obtain ⟨_, same, traced⟩ := traced
    replace traced := Fallible.traces_pure.mp traced
    obtain ⟨rfl, rfl⟩ := traced
    have equal : latestGeneration = catalogGeneration := by
      unfold Admission.checkAuthorityUnchanged at same
      split at same
      · cases same
      · rename_i equal
        exact not_not.mp equal
    subst equal
    refine ⟨_, metadata, latest, again, sound, rfl, described, still,
      ⟨document', capabilities', authorised'⟩, ?_⟩
    rw [sound.request]
    rfl
  · rintro ⟨findings, metadata, latest, again, sound, rfl, described, still, authorised', rfl⟩
    obtain ⟨document, capabilities, authorised⟩ := sound.authorised
    obtain ⟨document', capabilities', authorised'⟩ := authorised'
    obtain ⟨valid, canonical⟩ := running_iff.mpr ⟨_, _, sound.running, rfl⟩
    have unchanged := (checkUnchanged_iff sound.running).mpr still
    rw [Findings.whole, ← sound.request]
    refine Fallible.traces_check.mpr ⟨_, checkConfiguration_iff.mpr
      ⟨sound.binding, sound.configured, sound.client⟩, ?_⟩
    refine Fallible.traces_inquiry.mpr ⟨_, _, _, rfl, checkAuthority_iff.mpr
      ⟨_, document, capabilities, rfl, authorised⟩, ?_⟩
    refine Fallible.traces_inquiry.mpr ⟨_, _, _, rfl, checkObject_iff.mpr rfl, ?_⟩
    refine Fallible.traces_check.mpr ⟨_, valid, ?_⟩
    refine Fallible.traces_inquiry.mpr ⟨_, _, _, rfl, checkObject_iff.mpr rfl, ?_⟩
    refine Fallible.traces_check.mpr ⟨_, validateInstallation_iff.mpr sound.installed, ?_⟩
    refine Fallible.traces_check.mpr ⟨_, canonical, ?_⟩
    refine Fallible.traces_inquiry.mpr ⟨_, _, _, rfl, buildEngine_iff.mpr
      ⟨⟨_, rfl, sound.owned⟩, sound.contracts, sound.url⟩, ?_⟩
    refine Fallible.traces_inquiry.mpr ⟨_, _, _, rfl, checkMetadata_iff.mpr described, ?_⟩
    refine Fallible.traces_inquiry.mpr ⟨_, _, _, rfl, checkObject_iff.mpr rfl, ?_⟩
    refine Fallible.traces_check.mpr ⟨_, unchanged, ?_⟩
    refine Fallible.traces_inquiry.mpr ⟨_, _, _, rfl, checkAuthority_iff.mpr
      ⟨_, document', capabilities', rfl, authorised'⟩, ?_⟩
    refine Fallible.traces_check.mpr ⟨(), ?_, Fallible.traces_pure.mpr ⟨rfl, rfl⟩⟩
    simp [Admission.checkAuthorityUnchanged]

end Program

/-- What the platform, the file system and the endpoints are like, and how that may change. -/
structure Platform (State : Type) where
  moves : State → State → Prop
  authority : State → AuthorityReply
  runtimeStatus : State → String → JsonValue
  installation : State → String → JsonValue
  credential : State → String → Option CredentialFile
  endpoint : State → HttpRequest → HttpReply → Prop

section Platforms

variable {State : Type}

/-- Any read of the platform may also fail. -/
def Platform.answers (platform : Platform State) (state : State) :
    (inquiry : Inquiry) → inquiry.Answer → Prop
  | .authority, answer => answer = none ∨ answer = some (platform.authority state)
  | .runtimeStatus bindingId, answer =>
      answer = none ∨ answer = some (platform.runtimeStatus state bindingId)
  | .getInstallation installationId, answer =>
      answer = none ∨ answer = some (platform.installation state installationId)
  | .openCredential path, answer => answer = platform.credential state path
  | .send request, reply => platform.endpoint state request reply

def Platform.world (platform : Platform State) : World inquiries State :=
  ⟨platform.moves, platform.answers⟩

/-- Neither generation goes back, and the status changes only with its own. -/
structure Platform.Versions (platform : Platform State) (bindingId : String)
    (catalogGeneration generation : State → Int) : Prop where
  catalog : Ascends platform.moves catalogGeneration
  status : Versioned platform.moves generation fun state => platform.runtimeStatus state bindingId
  catalogTold : ∀ state authority told, (platform.authority state).document = .obj authority →
    member? authority "catalog_generation" = some (.int told) → catalogGeneration state = told
  statusTold : ∀ state status told, platform.runtimeStatus state bindingId = .obj status →
    member? status "generation" = some (.int told) → generation state = told

/-- Where the world was when each inquiry was answered. -/
structure Times (State : Type) where
  first : State
  opened : State
  recorded : State
  read : State
  asked : State
  closed : State
  final : State

def Times.Ordered (times : Times State) (platform : Platform State) (start last : State) : Prop :=
  platform.world.Later start times.first ∧ platform.world.Later times.first times.opened ∧
    platform.world.Later times.opened times.recorded ∧
    platform.world.Later times.recorded times.read ∧
    platform.world.Later times.read times.asked ∧
    platform.world.Later times.asked times.closed ∧
    platform.world.Later times.closed times.final ∧ platform.world.Later times.final last

/-- The status and the authority stood still while everything else was found out. -/
structure Snapshot (platform : Platform State) (catalogGeneration : State → Int)
    (admission : Admission) (times : Times State) (findings : Findings) (metadata : HttpReply) :
    Prop where
  sound : findings.Sound admission
  installation : platform.installation times.recorded findings.installationId =
    .obj findings.installation
  credential : platform.credential times.read findings.path = some findings.file
  asked : platform.endpoint times.asked findings.request metadata
  described : Describes findings.packageVersion metadata
  status : ∀ state, platform.world.Later times.opened state →
    platform.world.Later state times.closed →
      platform.runtimeStatus state admission.bindingId = .obj findings.status
  authority : ∀ state, platform.world.Later times.first state →
    platform.world.Later state times.final → catalogGeneration state = findings.catalogGeneration

theorem told_of_answers {α : Type} {found told : α}
    (answers : some found = none ∨ some found = some told) : told = found := by
  rcases answers with impossible | same
  · cases impossible
  · exact (Option.some.inj same).symm

theorem Platform.Versions.authorised {platform : Platform State} {bindingId : String}
    {catalogGeneration generation : State → Int}
    (versions : platform.Versions bindingId catalogGeneration generation) {state : State}
    {stated : Int} {reply : AuthorityReply} (told : platform.authority state = reply)
    (authorised : AuthorisedBy stated reply) : catalogGeneration state = stated := by
  obtain ⟨authority, capabilities, authorised⟩ := authorised
  subst told
  exact versions.catalogTold state authority stated authorised.document authorised.catalog

theorem packageRuntimeEngine_snapshot {admission : Admission} {platform : Platform State}
    {catalogGeneration generation : State → Int}
    (versions : platform.Versions admission.bindingId catalogGeneration generation)
    {start last : State} {moments : List (Moment inquiries State)}
    {engine : RemoteServingExecutionPort}
    (run : platform.world.Run admission.packageRuntimeEngine.run start moments (.ok engine) last) :
    ∃ (times : Times State) (findings : Findings) (metadata : HttpReply),
      times.Ordered platform start last ∧ findings.engine = engine ∧
        Snapshot platform catalogGeneration admission times findings metadata := by
  obtain ⟨witnessed, traced⟩ := run
  obtain ⟨findings, metadata, latest, again, sound, rfl, described, still, authorised, split⟩ :=
    packageRuntimeEngine_traces.mp traced
  -- There is one moment for each of the seven inquiries.
  have count : moments.length = 7 := by
    simpa [Findings.whole, Findings.past] using congrArg List.length split
  obtain ⟨m₁, m₂, m₃, m₄, m₅, m₆, m₇, rfl⟩ : ∃ m₁ m₂ m₃ m₄ m₅ m₆ m₇,
      moments = [m₁, m₂, m₃, m₄, m₅, m₆, m₇] := by
    match moments, count with
    | [m₁, m₂, m₃, m₄, m₅, m₆, m₇], _ => exact ⟨m₁, m₂, m₃, m₄, m₅, m₆, m₇, rfl⟩
  obtain ⟨first, event₁⟩ := m₁
  obtain ⟨opened, event₂⟩ := m₂
  obtain ⟨recorded, event₃⟩ := m₃
  obtain ⟨read, event₄⟩ := m₄
  obtain ⟨asked, event₅⟩ := m₅
  obtain ⟨closed, event₆⟩ := m₆
  obtain ⟨final, event₇⟩ := m₇
  simp only [List.map_cons, List.map_nil, Findings.whole, Findings.past, List.cons_append,
    List.nil_append, List.cons.injEq, and_true] at split
  obtain ⟨rfl, rfl, rfl, rfl, rfl, rfl, rfl⟩ := split
  obtain ⟨l₁, a₁, l₂, a₂, l₃, a₃, l₄, a₄, l₅, a₅, l₆, a₆, l₇, a₇, l₈⟩ := witnessed
  have authorityFirst : platform.authority first = findings.reply := told_of_answers a₁
  have statusOpened : platform.runtimeStatus opened admission.bindingId = .obj findings.status :=
    told_of_answers a₂
  have installed : platform.installation recorded findings.installationId =
      .obj findings.installation := told_of_answers a₃
  have statusClosed : platform.runtimeStatus closed admission.bindingId = .obj latest :=
    told_of_answers a₆
  have authorityFinal : platform.authority final = again := told_of_answers a₇
  have during : platform.world.Later opened closed := ((l₃.trans l₄).trans l₅).trans l₆
  have whole : platform.world.Later first final := (l₂.trans during).trans l₇
  have sameGeneration : generation opened = generation closed := by
    rw [versions.statusTold opened _ _ statusOpened sound.running.numbered,
      versions.statusTold closed _ _ statusClosed still.numbered]
  have atFirst := versions.authorised authorityFirst sound.authorised
  have atFinal := versions.authorised authorityFinal authorised
  refine ⟨⟨first, opened, recorded, read, asked, closed, final⟩, findings, metadata,
    ⟨l₁, l₂, l₃, l₄, l₅, l₆, l₇, l₈⟩, rfl, sound, installed, a₄.symm, a₅, described, ?_, ?_⟩
  · intro state after before
    rw [versions.status.between after before sameGeneration]
    exact statusOpened
  · intro state after before
    rw [versions.catalog.pinned after before (atFirst.trans atFinal.symm)]
    exact atFirst

end Platforms

/-- An engine is handed out exactly when all that was read agrees; its token goes to nobody but
the loopback port of the running status, once everything else was checked; and the status stood
still from the first reading to the last, whatever else happened meanwhile. -/
theorem engine_admission_is_a_snapshot (admission : Admission) :
    admission.packageRuntimeEngine.run.Obeys (Guarded admission) (fun _ _ => True)
      (fun _ _ => True) [] ∧
    (∀ past engine, admission.packageRuntimeEngine.run.Traces past (.ok engine) ↔
      ∃ (findings : Findings) (metadata : HttpReply) (latest : Document) (again : AuthorityReply),
        findings.Sound admission ∧ findings.engine = engine ∧
        Describes findings.packageVersion metadata ∧
        Running admission.bindingId findings.installationId findings.generation findings.port
          latest ∧
        AuthorisedBy findings.catalogGeneration again ∧
        past = findings.whole admission metadata latest again) ∧
    ∀ {State : Type} (platform : Platform State) (catalogGeneration generation : State → Int),
      platform.Versions admission.bindingId catalogGeneration generation →
      ∀ start moments engine last,
        platform.world.Run admission.packageRuntimeEngine.run start moments (.ok engine) last →
        ∃ (times : Times State) (findings : Findings) (metadata : HttpReply),
          times.Ordered platform start last ∧ findings.engine = engine ∧
            Snapshot platform catalogGeneration admission times findings metadata :=
  ⟨packageRuntimeEngine_guarded, fun _ _ => packageRuntimeEngine_traces,
    fun _ _ _ versions _ _ _ _ run => packageRuntimeEngine_snapshot versions run⟩

namespace Sample

/-- A binding that knows no model. -/
theorem id_of_none (members : Document) (document : ModelVersionDocument) (id : String)
    (canonical : none = some document) (_named : JsonValue.member? members "id" = some (.str id)) :
    document.id = id := by
  cases canonical

def contracts : Contracts where
  rules := ⟨fun _ => true, fun _ => true⟩
  printer :=
    { isprintable := fun _ => true
      floatRepr := fun _ => "0.0"
      encodes_ascii := fun _ _ => rfl
      floatRepr_head := Diagnostics.zero_head }
  canonicalModelVersion _ := none
  validateArtifactRef _ := none
  canonical_id := id_of_none

def admission : Admission where
  bindingId := "reactor.vllm"
  configuration := [("credential_file", .str "/run/secrets/token")]
  clientSource := some sourceId
  contracts := contracts
  euid := 1000

def digest : JsonValue :=
  .str "sha256:aaaaaaaaaaaaaaaaaaaaaaaaaaaaaaaaaaaaaaaaaaaaaaaaaaaaaaaaaaaaaaaa"

def running (generation port : Nat) : Document :=
  [("binding_id", .str "reactor.vllm"), ("installation_id", .str "install"),
    ("generation", .int generation), ("state", .str "RUNNING"),
    ("connection_ref", .str (connectionRefPrefix ++ toString port))]

def findings : Findings where
  path := "/run/secrets/token"
  reply := ⟨.obj [("authority", .str "platform_package_runtime"),
    ("protocol_version", .str controlProtocol), ("catalog_generation", .int 7),
    ("capabilities", .arr [.str "package_runtime_binding_operation"])], some 7⟩
  catalogGeneration := 7
  status := running 4 41001
  installationId := "install"
  generation := 4
  port := 41001
  installation := [("record_version", .int 1), ("installation_id", .str "install"),
    ("package_id", .str packageId), ("package_version", .str "0.1.0"), ("state", .str "INSTALLED"),
    ("capabilities", .arr [.str capabilityId]), ("artifact_digest", digest),
    ("archive_digest", digest), ("verification", .obj [("manifest_digest", digest)])]
  packageVersion := "0.1.0"
  file := ⟨true, 0o600, 1000, some "0123456789abcdef0123456789abcdef"⟩
  engine := ⟨contracts, "http://127.0.0.1:41001", "0123456789abcdef0123456789abcdef", by rfl⟩

def metadata : HttpReply := .answered 200 (some (.obj (expectedMetadata "0.1.0")))

/-- The runtime was started anew, on another port, at the first move. -/
def platform : Platform Nat where
  moves before after := after = before + 1
  authority _ := findings.reply
  runtimeStatus state _ := .obj (if state = 0 then running 3 41000 else findings.status)
  installation _ _ := .obj findings.installation
  credential _ _ := some findings.file
  endpoint _ request reply := request = findings.request ∧ reply = metadata

def generation (state : Nat) : Int := if state = 0 then 3 else 4

theorem findings_sound : findings.Sound admission where
  binding := by decide +kernel
  configured := by decide +kernel
  client := rfl
  authorised := ⟨_, _, rfl, by decide +kernel, by decide +kernel, rfl, rfl, by decide, rfl,
    List.cons_ne_nil _ _, rfl⟩
  running := ⟨by decide +kernel, rfl, by decide +kernel, by decide +kernel, rfl, by decide, rfl,
    by decide, by decide⟩
  installed := ⟨rfl, by decide +kernel, rfl, by decide +kernel, by decide +kernel,
    by decide +kernel, by decide +kernel, by decide +kernel, by decide +kernel, by decide +kernel⟩
  owned := ⟨rfl, by decide, by decide, _, rfl, by decide +kernel, by decide +kernel⟩
  contracts := rfl
  url := by decide +kernel

theorem platform_versions :
    platform.Versions admission.bindingId (fun _ => 7) generation where
  catalog _ _ _ := le_refl _
  status := by
    constructor
    · rintro before _ rfl
      simp only [generation]
      split <;> simp
    · rintro before _ rfl same
      cases before with
      | zero => cases same
      | succ before => rfl
  catalogTold := by
    intro state authority told document stated
    cases document
    cases stated
    rfl
  statusTold := by
    intro state status told document stated
    cases state with
    | zero =>
        cases document
        cases stated
        rfl
    | succ state =>
        cases document
        cases stated
        rfl

/-- The platform moves on while the admission goes on. -/
def moments : List (Moment inquiries Nat) :=
  [⟨1, answered .authority (some findings.reply)⟩,
    ⟨1, answered (.runtimeStatus admission.bindingId) (some (.obj findings.status))⟩,
    ⟨2, answered (.getInstallation findings.installationId) (some (.obj findings.installation))⟩,
    ⟨3, answered (.openCredential findings.path) (some findings.file)⟩,
    ⟨3, answered (.send findings.request) metadata⟩,
    ⟨4, answered (.runtimeStatus admission.bindingId) (some (.obj findings.status))⟩,
    ⟨5, answered .authority (some findings.reply)⟩]

theorem admission_run : platform.world.Run admission.packageRuntimeEngine.run 0 moments
    (.ok findings.engine) 5 where
  witnessed := ⟨.single rfl, .inr rfl, .refl, .inr rfl, .single rfl, .inr rfl, .single rfl, rfl,
    .refl, ⟨rfl, rfl⟩, .single rfl, .inr rfl, .single rfl, .inr rfl, .refl⟩
  traced := packageRuntimeEngine_traces.mpr ⟨findings, metadata, findings.status, findings.reply,
    findings_sound, rfl, ⟨200, _, rfl, by decide, by decide +kernel⟩, findings_sound.running,
    findings_sound.authorised, rfl⟩

end Sample

/-- An admission that begins before the runtime is started anew. -/
theorem engine_admission_is_a_snapshot_sampled :
    ∃ (times : Times Nat) (findings : Findings) (metadata : HttpReply),
      times.Ordered Sample.platform 0 5 ∧ findings.engine = Sample.findings.engine ∧
        Snapshot Sample.platform (fun _ => 7) Sample.admission times findings metadata :=
  (engine_admission_is_a_snapshot Sample.admission).2.2 Sample.platform (fun _ => 7)
    Sample.generation Sample.platform_versions 0 Sample.moments Sample.findings.engine 5
    Sample.admission_run

end CyreneReactor.PackageRuntime
