import CyreneReactor.Guarantees.RemoteReadiness
import CyreneReactor.Interaction.Obeys
import CyreneReactor.Remote.Client

namespace CyreneReactor.Remote

open Interaction Diagnostics RemoteServingExecutionPort Url

/-! Where the token of a binding is sent. -/

/-- The operations that send the token of the binding. -/
inductive PortCommand where
  | start (id : Uuid) (model : ArtifactRef) (nodeRef : Option NodeRef)
      (version : Option ModelVersionDocument)
  | inspect (executionRef endpointUrl : String) (id : Uuid) (digest : String)
      (version : Option ModelVersionDocument)
  | verifyServedModel (id : Uuid) (executionRef endpointUrl : String) (served : Option String)
  | diagnostics (executionRef : String) (afterSequence limit : Int)
  | stop (executionRef : String) (id : Uuid) (digest : String)
      (version : Option ModelVersionDocument)

/-- An URL that the client sends to is at the control URL's scheme and network location. -/
def Home (client : HttpClient) (port : RemoteServingExecutionPort) (url : String) : Prop :=
  client.refuses url = none →
    Url.origin port.contracts.rules url = Url.origin port.contracts.rules port.controlUrl

/-- Whatever the replies, every request of the program that is sent stays there. -/
def StaysHome (client : HttpClient) (port : RemoteServingExecutionPort) {α : Type}
    (program : Remoting α) : Prop :=
  ∀ past, program.run.Obeys (fun _ request => Home client port (HttpRequest.url request))
    client.Replies (fun _ _ => True) past

def PortCommand.StaysHome (client : HttpClient) (port : RemoteServingExecutionPort) :
    PortCommand → Prop
  | .start id model nodeRef version =>
      Remote.StaysHome client port (port.start id model nodeRef version)
  | .inspect executionRef endpointUrl id digest version =>
      Remote.StaysHome client port (port.inspect executionRef endpointUrl id digest version)
  | .verifyServedModel id executionRef endpointUrl served =>
      Remote.StaysHome client port (port.verifyServedModel id executionRef endpointUrl served)
  | .diagnostics executionRef afterSequence limit =>
      Remote.StaysHome client port (port.diagnostics executionRef afterSequence limit)
  | .stop executionRef id digest version =>
      Remote.StaysHome client port (port.stop executionRef id digest version)

section Composition

variable {client : HttpClient} {port : RemoteServingExecutionPort} {α β : Type}

theorem StaysHome.pure (value : α) : StaysHome client port (pure value) := fun _ => trivial

theorem StaysHome.ofExcept (outcome : Except Raised α) :
    StaysHome client port (Fallible.ofExcept outcome) := fun _ => trivial

theorem StaysHome.bind {first : Remoting α} {next : α → Remoting β}
    (stays : StaysHome client port first) (rest : ∀ value, StaysHome client port (next value)) :
    StaysHome client port (first >>= next) := by
  intro past
  apply Fallible.obeys_bind
  apply (stays past).mono
  intro outcome longer _
  cases outcome with
  | ok value => exact rest value longer
  | error raised => trivial

theorem StaysHome.check {outcome : Except Raised α} {next : α → Remoting β}
    (rest : ∀ value, outcome = .ok value → StaysHome client port (next value)) :
    StaysHome client port (Fallible.ofExcept outcome >>= next) := by
  intro past
  apply Fallible.obeys_ofExcept
  · exact fun _ _ => trivial
  · exact fun value known => rest value known past

theorem StaysHome.send {request : HttpRequest} (home : Home client port request.url) :
    StaysHome client port (send request) :=
  fun _ => ⟨home, fun _ _ => trivial⟩

/-- What is refused goes on with what the client raises. -/
theorem StaysHome.refused {request : HttpRequest} {kind : ExceptionKind}
    {next : HttpReply → Remoting α} (refuses : client.refuses request.url = some kind)
    (rest : StaysHome client port (next (.raised kind))) :
    StaysHome client port (Remote.send request >>= next) := by
  intro past
  apply Fallible.obeys_call
  · intro sent
    rw [refuses] at sent
    cases sent
  · intro reply replies
    rw [replies kind refuses]
    exact rest _

/-- What is made of the outcome is sent to nobody. -/
theorem StaysHome.finish {first : Remoting α} {finish : Except Raised α → Except Raised β}
    (stays : StaysHome client port first) :
    StaysHome client port (ExceptT.mk (first.run.bind fun outcome => .pure (finish outcome))) :=
  fun past => Program.Obeys.bind ((stays past).mono fun _ _ _ => trivial)

end Composition

section Operations

variable {client : HttpClient} {port : RemoteServingExecutionPort}

/-- An admitted control URL has a scheme. -/
theorem origin_of_port (port : RemoteServingExecutionPort) :
    ∃ parsed, Url.urlsplit port.contracts.rules port.controlUrl = some parsed ∧
      parsed.scheme ≠ [] := by
  have admitted := port.admitted
  unfold checkControlUrl at admitted
  split at admitted
  · cases admitted
  · rename_i parsed splits
    split at admitted
    · cases admitted
    · split at admitted
      · cases admitted
      · rename_i secure
        refine ⟨parsed, splits, ?_⟩
        by_cases https : parsed.scheme = "https".toList
        · simp [https]
        · obtain ⟨http, _⟩ := not_not.mp fun insecure => secure ⟨https, insecure⟩
          simp [http]

theorem origin_control (port : RemoteServingExecutionPort) : ∃ scheme netloc, scheme ≠ [] ∧
    Url.origin port.contracts.rules port.controlUrl = some (scheme, netloc) := by
  obtain ⟨parsed, splits, schemed⟩ := origin_of_port port
  exact ⟨parsed.scheme, parsed.netloc, schemed, by simp [Url.origin, splits, Url.Split.origin]⟩

/-- A path that does not begin with a slash, or with a character that is dropped. -/
def NamedPath (path : String) : Prop :=
  ∃ first tail, path.toList = first :: tail ∧ first ≠ '/' ∧ Url.isUnsafe first = false

/-- The control URL has a network location. -/
def Located (port : RemoteServingExecutionPort) : Prop :=
  ∃ scheme netloc, scheme ≠ [] ∧ netloc ≠ [] ∧
    Url.origin port.contracts.rules port.controlUrl = some (scheme, netloc)

theorem hostless_of_unlocated (unlocated : ¬Located port) : ∃ scheme, scheme ≠ [] ∧
    Url.origin port.contracts.rules port.controlUrl = some (scheme, []) := by
  obtain ⟨scheme, netloc, schemed, goes⟩ := origin_control port
  cases netloc with
  | nil => exact ⟨scheme, schemed, goes⟩
  | cons first rest => exact absurd ⟨scheme, _, schemed, List.cons_ne_nil _ _, goes⟩ unlocated

/-- A path behind an URL at the control URL's origin stays there. -/
theorem home_append (located : Located port) {url : String}
    (home : Url.origin port.contracts.rules url = Url.origin port.contracts.rules port.controlUrl)
    (path : String) : Url.origin port.contracts.rules (url ++ ("/" ++ path)) =
      Url.origin port.contracts.rules port.controlUrl := by
  obtain ⟨scheme, netloc, schemed, placed, goes⟩ := located
  rw [goes] at home ⊢
  exact Url.origin_append home schemed placed path

theorem home_rstrip (located : Located port) {url : String}
    (home : Url.origin port.contracts.rules url = Url.origin port.contracts.rules port.controlUrl) :
    Url.origin port.contracts.rules (Url.rstrip url) =
      Url.origin port.contracts.rules port.controlUrl := by
  obtain ⟨scheme, netloc, schemed, placed, goes⟩ := located
  rw [goes] at home ⊢
  exact Url.origin_rstrip home schemed placed

/-- Where the control URL has no network location, a path behind an URL at its origin is
refused. -/
theorem refused_path (documented : client.Documented port.contracts.rules)
    (unlocated : ¬Located port) {url : String}
    (home : Url.origin port.contracts.rules url = Url.origin port.contracts.rules port.controlUrl)
    {path : String} (named : NamedPath path) :
    ∃ kind, client.refuses (Url.rstrip url ++ ("/" ++ path)) = some kind := by
  obtain ⟨scheme, schemed, goes⟩ := hostless_of_unlocated unlocated
  obtain ⟨first, tail, starts, names, visible⟩ := named
  rw [goes] at home
  apply Option.ne_none_iff_exists'.mp
  intro sent
  have safe : ∀ char ∈ (Url.rstrip url).toList, Url.isUnsafe char = false := by
    intro char member
    apply documented.safe sent
    rw [String.toList_append]
    exact List.mem_append_left _ member
  obtain ⟨scheme', hostless⟩ := Url.origin_append_hostless home schemed safe starts names visible
  exact documented.hostless _ scheme' hostless sent

/-- A path behind an URL at the control URL's origin is sent there or nowhere. -/
theorem home_path (documented : client.Documented port.contracts.rules) {url : String}
    (home : Url.origin port.contracts.rules url = Url.origin port.contracts.rules port.controlUrl)
    {path : String} (named : NamedPath path) :
    Home client port (Url.rstrip url ++ ("/" ++ path)) := by
  intro sent
  by_cases located : Located port
  · exact home_append located (home_rstrip located home) path
  · obtain ⟨kind, refuses⟩ := refused_path documented located home named
    rw [refuses] at sent
    cases sent

theorem executionPath_eq (id : Uuid) : executionPath id = "/" ++ ("executions/" ++ id.str) := by
  rw [← String.append_assoc]
  rfl

theorem namedPath_executions (rest : String) : NamedPath ("executions/" ++ rest) :=
  ⟨'e', "xecutions/".toList ++ rest.toList, String.toList_append, by decide, rfl⟩

theorem stays_request (documented : client.Documented port.contracts.rules) (method : Method)
    {path : String} (named : NamedPath path) (payload : Option JsonValue) :
    StaysHome client port (port.request method ("/" ++ path) payload) :=
  .bind (.send (home_path documented rfl named)) fun _ => .ofExcept _

theorem stays_readback (documented : client.Documented port.contracts.rules) (id : Uuid) :
    StaysHome client port (port.request .get (executionPath id) none) := by
  rw [executionPath_eq]
  exact stays_request documented _ (namedPath_executions _) _

theorem home_execution (documented : client.Documented port.contracts.rules) (id : Uuid) :
    Home client port (port.base ++ executionPath id) := by
  rw [executionPath_eq]
  exact home_path documented rfl (namedPath_executions _)

/-- What a port without a host asks of an execution is refused, and so is no reply. -/
theorem unread_execution (documented : client.Documented port.contracts.rules)
    (unlocated : ¬Located port) (id : Uuid) :
    ∃ kind raised, client.refuses (port.base ++ executionPath id) = some kind ∧
      readReply port.contracts.printer (.raised kind) = .error raised := by
  have home : Url.origin port.contracts.rules port.controlUrl =
      Url.origin port.contracts.rules port.controlUrl := rfl
  obtain ⟨kind, refuses⟩ :=
    refused_path documented unlocated home (namedPath_executions id.str)
  rw [← executionPath_eq] at refuses
  unfold readReply
  by_cases expected : kind ∈ [ExceptionKind.httpError, .valueError, .typeError]
  · exact ⟨kind, _, refuses, if_pos expected⟩
  · exact ⟨kind, _, refuses, if_neg expected⟩

theorem stays_inspect (documented : client.Documented port.contracts.rules)
    (executionRef endpointUrl : String) (id : Uuid) (digest : String)
    (version : Option ModelVersionDocument) :
    StaysHome client port (port.inspect executionRef endpointUrl id digest version) := by
  unfold RemoteServingExecutionPort.inspect
  split
  · exact .pure _
  · apply StaysHome.finish
    by_cases located : Located port
    · apply (stays_readback documented id).bind
      intro result
      apply StaysHome.check
      intro verdict examined
      cases verdict with
      | inl observation => exact .pure _
      | inr served =>
          obtain ⟨admits, _⟩ := examine_iff.mp examined
          obtain ⟨place, goes, also⟩ := admits.origin
          apply StaysHome.bind
          · exact .send fun _ => home_append located (goes.trans also.symm) "chat/completions"
          · exact fun _ => .ofExcept _
    · -- The probe of such a port could leave, but its readback is never answered.
      obtain ⟨kind, raised, refuses, unread⟩ := unread_execution documented located id
      unfold tryInspect RemoteServingExecutionPort.request
      rw [bind_assoc]
      apply StaysHome.refused refuses
      apply StaysHome.check
      intro result read
      rw [unread] at read
      cases read

theorem stays_start (documented : client.Documented port.contracts.rules) (id : Uuid)
    (model : ArtifactRef) (nodeRef : Option NodeRef) (version : Option ModelVersionDocument) :
    StaysHome client port (port.start id model nodeRef version) := by
  unfold RemoteServingExecutionPort.start
  apply StaysHome.check
  intro asked _
  apply StaysHome.bind
  · exact .send (home_execution documented id)
  · intro reply
    apply StaysHome.check
    intro handle _
    exact (stays_inspect documented _ _ _ _ _).bind fun _ => .ofExcept _

theorem home_of_checkEndpoint {id : Uuid} {executionRef endpointUrl : String}
    {served : Option String} {value : Unit}
    (checked : port.checkEndpoint id executionRef endpointUrl served = .ok value) :
    Url.origin port.contracts.rules endpointUrl =
      Url.origin port.contracts.rules port.controlUrl := by
  unfold checkEndpoint at checked
  split at checked
  · cases checked
  · split at checked
    · rename_i endpoint control splits also
      split at checked
      · cases checked
      · rename_i same
        obtain ⟨place, goes, control⟩ := origin_of_splits splits also fun either =>
          same either.symm
        exact goes.trans control.symm
    · cases checked

theorem stays_verifyServedModel (documented : client.Documented port.contracts.rules) (id : Uuid)
    (executionRef endpointUrl : String) (served : Option String) :
    StaysHome client port (port.verifyServedModel id executionRef endpointUrl served) := by
  have named : NamedPath "models" := ⟨'m', "odels".toList, rfl, by decide, rfl⟩
  apply StaysHome.check
  intro _ checked
  apply StaysHome.bind
  · exact .send (home_path documented (home_of_checkEndpoint checked) named)
  · exact fun _ => .ofExcept _

theorem stays_diagnostics (documented : client.Documented port.contracts.rules)
    (executionRef : String) (afterSequence limit : Int) :
    StaysHome client port (port.diagnostics executionRef afterSequence limit) := by
  apply StaysHome.finish
  have path : diagnosticsPath executionRef afterSequence limit = "/" ++ ("executions/" ++
      (executionRef ++ "/diagnostics?afterSequence=" ++ toString afterSequence ++ "&limit=" ++
      toString limit)) := by
    simp only [diagnosticsPath, ← String.append_assoc]
    rfl
  rw [path]
  exact stays_request documented _ (namedPath_executions _) _

theorem stays_confirmVersion (documented : client.Documented port.contracts.rules) (id : Uuid)
    (digest : String) (version : Option ModelVersionDocument) :
    StaysHome client port (port.confirmVersion id digest version) := by
  cases version with
  | none => exact .pure _
  | some version =>
      apply StaysHome.check
      intro artifact _
      apply StaysHome.check
      intro expected _
      apply (stays_readback documented id).bind
      intro current
      apply StaysHome.check
      intro model _
      apply StaysHome.check
      intro returned _
      exact .ofExcept _

theorem stays_stop (documented : client.Documented port.contracts.rules) (executionRef : String)
    (id : Uuid) (digest : String) (version : Option ModelVersionDocument) :
    StaysHome client port (port.stop executionRef id digest version) := by
  unfold RemoteServingExecutionPort.stop
  split
  · exact .ofExcept _
  · apply (stays_confirmVersion documented id digest version).bind
    intro _
    rw [executionPath_eq, String.append_assoc, String.append_assoc]
    exact (stays_request documented _ (namedPath_executions _) _).bind fun _ => .ofExcept _

end Operations

/-- Every request that is sent with the binding's token goes to the origin of the control
URL. -/
theorem token_stays_with_control_origin (client : HttpClient) (port : RemoteServingExecutionPort)
    (documented : client.Documented port.contracts.rules) (command : PortCommand) :
    command.StaysHome client port := by
  cases command with
  | start id model nodeRef version => exact stays_start documented id model nodeRef version
  | inspect executionRef endpointUrl id digest version =>
      exact stays_inspect documented executionRef endpointUrl id digest version
  | verifyServedModel id executionRef endpointUrl served =>
      exact stays_verifyServedModel documented id executionRef endpointUrl served
  | diagnostics executionRef afterSequence limit =>
      exact stays_diagnostics documented executionRef afterSequence limit
  | stop executionRef id digest version => exact stays_stop documented executionRef id digest version

/-- A binding whose control URL is `https:`. -/
def schemePort : RemoteServingExecutionPort where
  contracts := hostPort.contracts
  controlUrl := "https:"
  token := "token"
  admitted := by rfl

/-- A binding with a host, and one without: its registry would be at the host `models`, were
it not for the line end. -/
theorem token_stays_with_control_origin_sampled :
    (PortCommand.verifyServedModel ⟨1⟩ (Uuid.str ⟨1⟩) "https://host/v1"
      (some (servedName ⟨1⟩))).StaysHome (plainClient hostPort.contracts.rules) hostPort ∧
    (plainClient hostPort.contracts.rules).refuses (Url.rstrip "https://host/v1" ++ "/models") =
      none ∧
    (PortCommand.verifyServedModel ⟨1⟩ (Uuid.str ⟨1⟩) "https:/\n"
      (some (servedName ⟨1⟩))).StaysHome (plainClient schemePort.contracts.rules) schemePort ∧
    Url.origin schemePort.contracts.rules (Url.rstrip "https:/\n" ++ "/models") =
      some ("https".toList, "models".toList) :=
  ⟨token_stays_with_control_origin _ _ (plainClient_documented _) _, by rfl,
    token_stays_with_control_origin _ _ (plainClient_documented _) _, by rfl⟩

end CyreneReactor.Remote
