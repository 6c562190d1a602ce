import CyreneReactor.Diagnostics.Script
import CyreneReactor.Runtime.PluginAdapter

namespace CyreneReactor.Runtime.PluginAdapter

open Diagnostics

/-! Whether a load that failed leaves the model in the plugin. -/

/-- When `ensure_model` raises and the plugin was asked to load, it was asked to unload
afterwards. -/
def CleanedUp (received : List Invocation) (ensured : Ensured) : Prop :=
  ∀ raised, ensured.result = .error raised → ∀ (earlier later : List Invocation) (load : Invocation),
    ensured.received = received ++ earlier ++ load :: later → load.method = .loadModel →
    ∃ unload ∈ later, unload.method = .unloadModel

/-- The reply to a load that the adapter takes for a loaded model. -/
def Answer.Accepted (answer : Answer) : Prop :=
  ∃ response members, answer = .payload response ∧
    response.typeUrl = executionEngineTypeUrl .loadModel "response" ∧
    response.value = .json (.obj members) ∧ Adapter.confirms members = true

namespace Adapter

variable {printer : Printer} {adapter : Adapter} {plugin : Plugin} {received : List Invocation}
  {modelPath : String} {adapterPath : Option String} {kwargs : Arguments} {invocation : Invocation}

/-- What `load_model` hands to the client, if it gets so far. -/
def loadRequest (adapter : Adapter) (modelPath : String) (adapterPath : Option String)
    (kwargs : Arguments) : Option Invocation :=
  match kwargs.find? fun argument => ownNames.contains argument.1 with
  | some _ => none
  | none =>
      match adapter.request .loadModel (loadPayload modelPath adapterPath kwargs)
          (kwargs.get? "deadline_seconds") with
      | .ok invocation => some invocation
      | .error _ => none

theorem method_of_loadRequest
    (sent : adapter.loadRequest modelPath adapterPath kwargs = some invocation) :
    invocation.method = .loadModel := by
  unfold loadRequest request at sent
  cases own : kwargs.find? fun argument => ownNames.contains argument.1 with
  | some argument =>
      rw [own] at sent
      cases sent
  | none =>
      cases encoded : jsonBytes (loadPayload modelPath adapterPath kwargs) with
      | error raised =>
          simp only [own, encoded, Except.map] at sent
          cases sent
      | ok value =>
          simp only [own, encoded, Except.map, Option.some.injEq] at sent
          rw [← sent]

theorem loadModel_of_unsent (unsent : adapter.loadRequest modelPath adapterPath kwargs = none) :
    ∃ raised, adapter.loadModel printer plugin received modelPath adapterPath kwargs =
      (.error raised, received) := by
  unfold loadRequest at unsent
  unfold loadModel
  cases own : kwargs.find? fun argument => ownNames.contains argument.1 with
  | some argument => exact ⟨_, rfl⟩
  | none =>
      cases asked : adapter.request .loadModel (loadPayload modelPath adapterPath kwargs)
          (kwargs.get? "deadline_seconds") with
      | ok invocation =>
          simp only [own, asked] at unsent
          cases unsent
      | error raised =>
          refine ⟨raised, ?_⟩
          simp only [invoke, asked]

/-- The answer to the load decides how it ends. -/
theorem loadModel_of_sent (printer : Printer) (plugin : Plugin) (received : List Invocation)
    (sent : adapter.loadRequest modelPath adapterPath kwargs = some invocation) :
    ∃ result, adapter.loadModel printer plugin received modelPath adapterPath kwargs =
        (result, if plugin.reached (received ++ [invocation]) then received ++ [invocation]
          else received) ∧
      ((∃ loaded, result = .ok loaded) ↔ (plugin.answer (received ++ [invocation])).Accepted) := by
  unfold loadRequest at sent
  unfold loadModel
  cases own : kwargs.find? fun argument => ownNames.contains argument.1 with
  | some argument =>
      rw [own] at sent
      cases sent
  | none =>
      cases asked : adapter.request .loadModel (loadPayload modelPath adapterPath kwargs)
          (kwargs.get? "deadline_seconds") with
      | error raised =>
          simp only [own, asked] at sent
          cases sent
      | ok handed =>
          simp only [own, asked, Option.some.injEq] at sent
          subst sent
          simp only [invoke, asked]
          cases answered : plugin.answer (received ++ [handed]) with
          | failed error | rejected text | crashed text | untyped =>
              exact ⟨_, rfl, by simp [Answer.Accepted]⟩
          | payload response =>
              by_cases typed : response.typeUrl = executionEngineTypeUrl .loadModel "response"
              · cases content : response.value with
                | malformed error | refused thrown =>
                    simp only [readAnswer, typed, content, ne_eq, not_true_eq_false, ↓reduceIte]
                    exact ⟨_, rfl, by simp [Answer.Accepted, content]⟩
                | json value =>
                    cases value with
                    | obj members =>
                        simp only [readAnswer, typed, content, ne_eq, not_true_eq_false,
                          ↓reduceIte]
                        cases confirmed : confirms members with
                        | true =>
                            exact ⟨_, rfl, by simp [Answer.Accepted, typed, content, confirmed]⟩
                        | false =>
                            exact ⟨_, rfl, by simp [Answer.Accepted, content, confirmed]⟩
                    | null | bool | int | float | str | arr =>
                        simp only [readAnswer, typed, content, ne_eq, not_true_eq_false,
                          ↓reduceIte]
                        exact ⟨_, rfl, by simp [Answer.Accepted, content]⟩
              · simp only [readAnswer, ne_eq, typed, not_false_eq_true, ↓reduceIte]
                exact ⟨_, rfl, by simp [Answer.Accepted, typed]⟩

/-- A load that failed leaves the adapter as it was, which is not loaded. -/
theorem unloadModel_of_not_loaded (fresh : adapter.isLoaded = false) :
    adapter.unloadModel printer plugin received = (.ok adapter, received) := by
  simp only [unloadModel, fresh, Bool.false_eq_true, ↓reduceIte]

end Adapter

section CleanedUp

variable {printer : Printer} {plugin : Plugin} {server : Server} {request : ModelRequest}
  {received : List Invocation} {engine : Adapter}

theorem createEngine_fresh {binding : ExecutionEngineBinding} {connects : String → Option String}
    {providerId : String} (created : createEngine binding connects providerId = .ok engine) :
    engine.isLoaded = false := by
  unfold createEngine at created
  split at created
  · cases created
  · cases created
  · cases created
  · cases created
  · split at created
    · cases created
    · split at created
      · cases created
      · cases created
        rfl

theorem cleanedUp_of_unasked {ensured : Ensured} (unasked : ensured.received = received) :
    CleanedUp received ensured := by
  intro _ _ earlier later load asked _
  have lengths := congrArg List.length (unasked.symm.trans asked)
  simp at lengths

/-- The load that `ensure_model` asks the plugin for, if it does. -/
def Server.load? (server : Server) (request : ModelRequest) : Option Invocation :=
  match server.answered request, createEngine server.binding server.connects request.providerId with
  | none, .ok engine =>
      engine.loadRequest request.modelPath request.adapterPath request.engineKwargs
  | _, _ => none

theorem ensureModel_unasked (unasked : server.load? request = none) :
    (server.ensureModel printer plugin request received).received = received := by
  unfold Server.load? at unasked
  unfold Server.ensureModel
  cases answered : server.answered request with
  | some result => rfl
  | none =>
      cases created : createEngine server.binding server.connects request.providerId with
      | error raised => rfl
      | ok engine =>
          simp only [answered, created] at unasked
          have fails : ∃ raised, engine.loadModel printer plugin received request.modelPath
              request.adapterPath request.engineKwargs = (.error raised, received) :=
            Adapter.loadModel_of_unsent unasked
          obtain ⟨raised, failed⟩ := fails
          simp only [failed, Adapter.unloadModel_of_not_loaded (createEngine_fresh created)]

/-- The plugin was asked to load, and nothing else. -/
theorem ensureModel_asked (printer : Printer) (plugin : Plugin) (received : List Invocation)
    {invocation : Invocation} (asked : server.load? request = some invocation) :
    invocation.method = .loadModel ∧
    (server.ensureModel printer plugin request received).received =
        (if plugin.reached (received ++ [invocation]) then received ++ [invocation]
          else received) ∧
      ((∃ loaded, (server.ensureModel printer plugin request received).result = .ok loaded) ↔
        (plugin.answer (received ++ [invocation])).Accepted) := by
  unfold Server.load? at asked
  unfold Server.ensureModel
  cases answered : server.answered request with
  | some result => simp [answered] at asked
  | none =>
      cases created : createEngine server.binding server.connects request.providerId with
      | error raised => simp [answered, created] at asked
      | ok engine =>
          simp only [answered, created] at asked
          refine ⟨Adapter.method_of_loadRequest asked, ?_⟩
          obtain ⟨result, loads, accepted⟩ := Adapter.loadModel_of_sent printer plugin received asked
          simp only [loads]
          cases result with
          | ok loaded => exact ⟨rfl, by simpa using accepted⟩
          | error raised =>
              simp only [Adapter.unloadModel_of_not_loaded (createEngine_fresh created)]
              exact ⟨trivial, by simpa using accepted⟩

end CleanedUp

/-- A failed load is cleaned up exactly when it does not reach the plugin or does not fail. -/
theorem failed_load_is_cleaned_up_iff (printer : Printer) (plugin : Plugin) (server : Server)
    (request : ModelRequest) (received : List Invocation) :
    CleanedUp received (server.ensureModel printer plugin request received) ↔
      ∀ invocation, server.load? request = some invocation →
        plugin.reached (received ++ [invocation]) = false ∨
          (plugin.answer (received ++ [invocation])).Accepted := by
  constructor
  · intro cleaned invocation asked
    obtain ⟨method, went, accepted⟩ := ensureModel_asked printer plugin received asked
    cases ended : (server.ensureModel printer plugin request received).result with
    | ok loaded => exact .inr (accepted.mp ⟨loaded, ended⟩)
    | error raised =>
        cases reached : plugin.reached (received ++ [invocation]) with
        | false => exact .inl rfl
        | true =>
            rw [reached] at went
            obtain ⟨unload, member, _⟩ :=
              cleaned raised ended [] [] invocation (by simpa using went) method
            cases member
  · intro confirmed
    cases asked : server.load? request with
    | none => exact cleanedUp_of_unasked (ensureModel_unasked asked)
    | some invocation =>
        obtain ⟨_, went, accepted⟩ := ensureModel_asked printer plugin received asked
        rcases confirmed invocation asked with unreached | fine
        · rw [unreached] at went
          exact cleanedUp_of_unasked went
        · obtain ⟨loaded, ended⟩ := accepted.mpr fine
          intro raised failed
          rw [ended] at failed
          cases failed

/-- A plugin that is slow to load. -/
def slowPlugin : Plugin where
  answer _ := .failed (.deadlineExceeded "load_model")
  reached _ := true

def boundServer : Server where
  isShuttingDown := false
  residency := ∅
  binding := ⟨some "grpc://127.0.0.1:50051", some "cyrene.engines.vllm", 30⟩
  connects := fun _ => none
  allowPlaceholderModel := false

def loadOnce : ModelRequest := ⟨"m", "/models/m", none, "cyrene.engines.vllm", []⟩

/-- The load runs into its deadline, and the plugin is never asked to unload. -/
theorem failed_load_is_left_behind :
    ¬ CleanedUp [] (boundServer.ensureModel Sample.diagnostics.printer slowPlugin loadOnce []) := by
  intro cleaned
  obtain ⟨unload, member, _⟩ := cleaned _ rfl [] [] _ rfl rfl
  cases member

end CyreneReactor.Runtime.PluginAdapter
