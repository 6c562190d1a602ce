import CyreneReactor.Drafts.Books
import CyreneReactor.Guarantees.Creation

namespace CyreneReactor

open Interaction ReactorService Relational

/-! Keys the API derives and keys its clients choose.

Both live in one string space, so a derived key is safe exactly as long as no
client has used the same string for something else.  What a deploy or an import
comes to is decided by the row it finds under its key, and each row is told by
the request that committed it.
-/

section Callers

variable {environment : Environment} {service : ReactorService}

/-- Whoever left an event is a thread of the pool. -/
theorem Reached.callers {pool : Pool (service.system environment)}
    (reached : Reached environment service pool) :
    ∀ event ∈ State.journal pool.state, ∃ thread : Thread (service.system environment),
      pool.threads[event.caller.index]? = some thread ∧
        thread.command = event.caller.command := by
  induction reached with
  | refl => exact fun _ member => absurd member List.not_mem_nil
  | @tail before next _ step ih =>
      intro event member
      have earlier : event ∈ State.journal before.state →
          ∃ thread : Thread (service.system environment),
            next.threads[event.caller.index]? = some thread ∧
              thread.command = event.caller.command := by
        intro old
        obtain ⟨thread, found, command⟩ := ih event old
        obtain ⟨after, found', command'⟩ := step.command_of_thread found
        exact ⟨after, found', command'.trans command⟩
      cases step with
      | start | acquire | release => exact earlier member
      | @call index command depth op _ answer state here does =>
          obtain ⟨_, _, rfl⟩ := does
          simp only [State.after] at member
          split at member
          · rcases List.mem_append.mp member with old | last
            · exact earlier old
            · obtain rfl := List.mem_singleton.mp last
              have bound := (List.getElem?_eq_some_iff.mp here).1
              exact ⟨_, List.getElem?_set_self bound, rfl⟩
          · exact earlier member

/-- A program run alone adds events of its own only. -/
theorem own_events {caller : Caller Command} {depth depth' : Nat} {α : Type}
    {program program' : Program (service.system environment).signature α}
    {start finish : (service.system environment).State}
    (ran : @Runs (service.system environment) caller α depth program start
      depth' program' finish) :
    ∃ events, State.journal finish = State.journal start ++ events ∧
      ∀ event ∈ events, event.caller = caller := by
  induction ran with
  | refl => exact ⟨[], (List.append_nil _).symm, fun _ member => absurd member List.not_mem_nil⟩
  | acquire _ ih | release _ ih => exact ih
  | @call _ op _ answer state _ _ _ _ does _ ih =>
      obtain ⟨_, _, rfl⟩ := does
      obtain ⟨events, grown, own⟩ := ih
      rw [grown]
      simp only [State.after]
      split
      · refine ⟨⟨caller, op, answer⟩ :: events, by simp, fun event member => ?_⟩
        rcases List.mem_cons.mp member with rfl | later
        · rfl
        · exact own event later
      · exact ⟨events, rfl, own⟩

/-- Nothing leaves the journal. -/
theorem Evolves.journal_grows {state later : State}
    (evolves : Evolves environment service state later) (consistent : Consistent state) :
    ∀ event ∈ state.journal, event ∈ later.journal := by
  intro event member
  refine (evolves.invariant (fun state => event ∈ state.journal) ?_ consistent member).2
  intro caller op state answer recorded _ before _ _ _
  rw [State.after_recorded recorded]
  exact List.mem_append_left _ before

/-- A create run alone moves the state lawfully. -/
theorem Alone.create_evolves {start finish : State} {index : Nat}
    {request : CreateDeploymentRequest} {key : Option String} {result : Except Raised Deployment}
    (consistent : Consistent start) (unseen : Unseen index start)
    (ran : Alone environment service ⟨index, .create request key⟩ 0
      (service.body (.create request key)).attempt start 0 (.pure result) finish) :
    Evolves environment service start finish := by
  have section' : Section service start ⟨index, .create request key⟩
      (service.underLock (.create request key)) := .command fun _ same => by cases same
  exact (section'.served consistent unseen ran).2

/-- A launch that returns, returns the deployment it was given, served. -/
theorem Launches.returned {slot new : Slot} {calls : List Exchange} {deployment : Deployment}
    (launches : Launches environment service slot calls new (.ok deployment)) :
    deployment.id = slot.deployment.id ∧
      deployment.modelVersion = slot.deployment.modelVersion := by
  cases launches with
  | launched prepares _ _ _ settles =>
      cases settles with
      | ready => cases prepares <;> exact ⟨rfl, rfl⟩

/-- Nobody has committed a create under the key. -/
def KeyUnused (key : String) (state : State) : Prop :=
  ∀ event ∈ state.journal, ∀ request deployment,
    event.caller.command = .create request (some key) → event.created? ≠ some deployment

theorem Intents.resolves_iff {state : State} (intents : Intents service state) {key : String}
    {digest : String} :
    state.database.resolveIdempotency (some key) digest = .ok none ↔ KeyUnused key state := by
  have found : state.database.findIdempotency key = none ↔ KeyUnused key state := by
    constructor
    · intro absent event member request deployment command creates
      have known := intents.row command
        (created_iff.mpr ⟨event, member, rfl, deployment, creates, rfl⟩)
      have row := intents.find known
      rw [absent] at row
      cases row
    · intro unused
      cases lookup : state.database.findIdempotency key with
      | none => rfl
      | some row =>
          obtain ⟨present, wanted⟩ := Table.find?_mem lookup
          simp only [Bool.and_eq_true, beq_iff_eq] at wanted
          obtain ⟨_, event, member, deployment, creates, _, intent⟩ := intents.named present
          obtain ⟨request, key', command, intent'⟩ :=
            intents.commanded event member deployment creates
          rw [intent] at intent'
          cases key' with
          | none => cases intent'
          | some used =>
              cases intent'
              obtain rfl := wanted.2
              exact absurd creates (unused event member request deployment command)
  rw [← found]
  simp only [Database.resolveIdempotency]
  cases state.database.findIdempotency key with
  | none => simp
  | some row =>
      simp only [reduceCtorEq, iff_false]
      split <;> simp

/-- A committed deployment has the model version of the request it was committed for. -/
theorem Evolves.versions {state : State}
    (evolves : Evolves environment service State.initial state) :
    ∀ event ∈ state.journal, ∀ deployment, event.created? = some deployment →
      ∃ request key, event.caller.command = .create request key ∧
        deployment.modelVersion = request.modelVersion := by
  refine (evolves.invariant (fun state => ∀ event ∈ state.journal, ∀ deployment,
    event.created? = some deployment → ∃ request key, event.caller.command = .create request key ∧
      deployment.modelVersion = request.modelVersion) ?_ initial_consistent
    (fun _ member => absurd member List.not_mem_nil)).2
  intro caller op state answer recorded _ before _ _ lawful event member deployment creates
  rw [State.after_recorded recorded] at member
  rcases List.mem_append.mp member with earlier | last
  · exact before event earlier deployment creates
  · obtain rfl := List.mem_singleton.mp last
    obtain ⟨key, digest, same⟩ := Event.created?_eq_some creates
    cases same
    obtain ⟨request, now, command, _, drawn, _⟩ := lawful
    exact ⟨request, key, command, congrArg Deployment.modelVersion drawn⟩

/-- The caller committed a new deployment of the version, and if it returned,
it returned that deployment. -/
def CreatesAnew (caller : Caller Command) (version : Option ModelVersionDocument) (finish : State)
    (result : Except Raised Deployment) : Prop :=
  ∃ event ∈ finish.journal, event.caller = caller ∧ ∃ deployment,
    event.created? = some deployment ∧ deployment.modelVersion = version ∧
      ∀ returned, result = .ok returned →
        returned.id = deployment.id ∧ returned.modelVersion = version

section Alone

variable {start finish : State} {index : Nat} {request : CreateDeploymentRequest} {key : String}
variable {result : Except Raised Deployment}

theorem KeyUnused.creates_anew (evolves : Evolves environment service State.initial start)
    (unseen : Unseen index start)
    (ran : Alone environment service ⟨index, .create request (some key)⟩ 0
      (service.body (.create request (some key))).attempt start 0 (.pure result) finish)
    (later : Evolves environment service State.initial finish)
    (bound : ∃ engine, service.engineFor request.servingBindingId = .ok engine)
    (unused : KeyUnused key start) :
    CreatesAnew ⟨index, .create request (some key)⟩ request.modelVersion finish result := by
  have resolves : start.database.resolveIdempotency (some key) (service.requestHash request) =
      .ok none := evolves.intents.resolves_iff.mpr unused
  cases Alone.create (evolves.consistent initial_consistent) unseen ran with
  | conflicting conflict =>
      rw [resolves] at conflict
      cases conflict
  | missing known | replayed known =>
      rw [resolves] at known
      cases known
  | unbound _ unbound =>
      obtain ⟨engine, bound⟩ := bound
      rw [unbound] at bound
      cases bound
  | @launched id now new calls recent _ _ _ absent _ launches inside =>
      obtain ⟨event, member, deployment, creates, rfl⟩ := later.intents.created _ _ inside.here
      obtain ⟨events, grown, own⟩ := own_events ran
      -- Nobody else can have committed it: it was not stored before.
      have mine : event.caller = ⟨index, .create request (some key)⟩ := by
        rw [grown] at member
        rcases List.mem_append.mp member with earlier | added
        · obtain ⟨slot, here⟩ := evolves.intents.stored event earlier deployment creates
          rw [absent] at here
          cases here
        · exact own event added
      obtain ⟨request', key', command, version⟩ :=
        later.versions event member deployment creates
      rw [mine] at command
      cases command
      refine ⟨event, member, mine, deployment, creates, version, fun returned ok => ?_⟩
      subst ok
      exact launches.returned

theorem CreatesAnew.unused (unseen : Unseen index start)
    (ran : Alone environment service ⟨index, .create request (some key)⟩ 0
      (service.body (.create request (some key))).attempt start 0 (.pure result) finish)
    (later : Evolves environment service State.initial finish)
    {version : Option ModelVersionDocument}
    (anew : CreatesAnew ⟨index, .create request (some key)⟩ version finish result) :
    KeyUnused key start := by
  intro event member other deployment command creates
  obtain ⟨mine, member', own, created, creates', _⟩ := anew
  obtain ⟨events, grown, _⟩ := own_events ran
  have there : event ∈ State.journal finish := by
    rw [grown]
    exact List.mem_append_left _ member
  have mineCreated : Created ⟨index, .create request (some key)⟩ created.id finish.journal :=
    created_iff.mpr ⟨mine, member', own, created, creates', rfl⟩
  have otherCreated : Created event.caller deployment.id finish.journal :=
    created_iff.mpr ⟨event, there, rfl, deployment, creates, rfl⟩
  have same := (later.intents.unique rfl command mineCreated otherCreated).2
  exact unseen event member (congrArg Caller.index same.symm)

/-- A create under an unused key that names no binding is refused for that. -/
theorem KeyUnused.unbound (evolves : Evolves environment service State.initial start)
    (unseen : Unseen index start)
    (ran : Alone environment service ⟨index, .create request (some key)⟩ 0
      (service.body (.create request (some key))).attempt start 0 (.pure result) finish)
    {raised : Raised} (unbound : service.engineFor request.servingBindingId = .error raised)
    (unused : KeyUnused key start) : result = .error raised := by
  have resolves : start.database.resolveIdempotency (some key) (service.requestHash request) =
      .ok none := evolves.intents.resolves_iff.mpr unused
  cases Alone.create (evolves.consistent initial_consistent) unseen ran with
  | conflicting conflict =>
      rw [resolves] at conflict
      cases conflict
  | missing known | replayed known =>
      rw [resolves] at known
      cases known
  | unbound _ refused =>
      rw [unbound] at refused
      cases refused
      rfl
  | launched _ _ bound =>
      obtain ⟨engine, bound⟩ := bound
      rw [unbound] at bound
      cases bound

end Alone

end Callers

namespace Drafts

section Runs

variable {environment : Environment} {api : Api} {desk next : Desk environment api}

theorem Desk.Reachable.pool (reached : desk.Reachable) :
    Reached environment api.service desk.pool := by
  induction reached with
  | refl => exact .refl
  | tail _ step ih =>
      cases step with
      | served step => exact ih.tail step
      | imported | deployed => exact ih
      | deploying => exact ih.tail (.start _ _)

/-- Every deploy has a thread, which creates a deployment of the draft's version
under the draft's key. -/
def Desk.Commanded (desk : Desk environment api) : Prop :=
  ∀ call ∈ desk.deploys, ∃ (thread : Thread (api.service.system environment))
    (request : CreateDeploymentRequest), desk.pool.threads[call.index]? = some thread ∧
      thread.command = Command.create request (some (deployKey call.draft.id)) ∧
      request.modelVersion = some call.draft.modelVersion

theorem Desk.Commanded.step (commanded : desk.Commanded) (step : Desk.Step desk next) :
    next.Commanded := by
  cases step with
  | served step =>
      intro call member
      obtain ⟨thread, request, found, command, version⟩ := commanded call member
      obtain ⟨after, found', command'⟩ := step.command_of_thread found
      exact ⟨after, request, found', command'.trans command, version⟩
  | imported | deployed => exact commanded
  | deploying prepared =>
      intro call member
      rcases List.mem_append.mp member with earlier | last
      · obtain ⟨thread, request, found, rest⟩ := commanded call earlier
        have bound := (List.getElem?_eq_some_iff.mp found).1
        exact ⟨thread, request, (List.getElem?_append_left bound).trans found, rest⟩
      · obtain rfl := List.mem_singleton.mp last
        obtain ⟨read, version⟩ := Api.prepareDeploy_eq_ok prepared
        obtain ⟨_, rfl⟩ := DraftStore.getDraft_eq_ok read
        exact ⟨_, _, List.getElem?_concat_length, rfl, version⟩

theorem Desk.Reachable.commanded (reached : desk.Reachable) : desk.Commanded := by
  induction reached with
  | refl => exact fun _ member => absurd member List.not_mem_nil
  | tail _ step ih => exact ih.step step

theorem deployKey_injective : Function.Injective deployKey := by
  intro left right same
  have spelled : ∀ id, deployKey id = "deployment-draft:" ++ id.str := fun _ => rfl
  have chars := congrArg String.toList same
  rw [spelled, spelled, String.toList_append, String.toList_append] at chars
  exact Uuid.str_injective (String.toList_inj.mp (List.append_cancel_left chars))

/-- No deploy of the draft has committed a deployment. -/
def Desk.NeverDeployed (desk : Desk environment api) (draftId : Uuid) (state : State) : Prop :=
  ∀ call ∈ desk.deploys, call.draft.id = draftId → ∀ event ∈ state.journal,
    event.caller.index = call.index → event.created? = none

/-- A client's own create has committed a deployment under the draft's key. -/
def Desk.TakenByClient (desk : Desk environment api) (draftId : Uuid) (state : State) : Prop :=
  ∃ event ∈ state.journal, ∃ request deployment,
    event.caller.command = .create request (some (deployKey draftId)) ∧
      event.created? = some deployment ∧ ∀ call ∈ desk.deploys, event.caller.index ≠ call.index

/-- The key of a draft that was never deployed is used by clients or not at all. -/
theorem Desk.Reachable.unused_iff (reached : desk.Reachable) {draftId : Uuid} {state : State}
    (later : ∀ event ∈ state.journal, event ∈ State.journal desk.pool.state)
    (never : desk.NeverDeployed draftId state) :
    KeyUnused (deployKey draftId) state ↔ ¬desk.TakenByClient draftId state := by
  constructor
  · rintro unused ⟨event, member, request, deployment, command, creates, _⟩
    exact unused event member request deployment command creates
  · intro untaken event member request deployment command creates
    refine untaken ⟨event, member, request, deployment, command, creates, ?_⟩
    intro call begun same
    -- A deploy under this key would be one of this draft.
    obtain ⟨thread, other, found, command', _⟩ := reached.commanded call begun
    obtain ⟨thread', found', commanded⟩ := reached.pool.callers event (later event member)
    rw [same, found, Option.some.injEq] at found'
    subst found'
    rw [← commanded, command', Command.create.injEq, Option.some.injEq] at command
    have silent := never call begun (deployKey_injective command.2) event member same
    rw [silent] at creates
    cases creates

/-- What a deploy that is over came to. -/
structure Desk.Deployed (desk : Desk environment api) (call : DeployCall)
    (request : CreateDeploymentRequest) (start finish : State)
    (result : Except Raised Deployment) : Prop where
  version : request.modelVersion = some call.draft.modelVersion
  before : Evolves environment api.service State.initial start
  after : Evolves environment api.service finish desk.pool.state
  ran : Alone environment api.service
    ⟨call.index, .create request (some (deployKey call.draft.id))⟩ 0
    (api.service.body (.create request (some (deployKey call.draft.id)))).attempt start
    0 (.pure result) finish
  anew_iff : desk.NeverDeployed call.draft.id start →
    (∃ engine, api.service.engineFor request.servingBindingId = .ok engine) →
    (CreatesAnew ⟨call.index, .create request (some (deployKey call.draft.id))⟩
      (some call.draft.modelVersion) finish result ↔ ¬desk.TakenByClient call.draft.id start)
  unbound : desk.NeverDeployed call.draft.id start → ¬desk.TakenByClient call.draft.id start →
    ∀ raised, api.service.engineFor request.servingBindingId = .error raised →
      result = .error raised

/-- Deploys and imports come to their own resources as long as no client has used
the key the API derives for them. -/
structure Desk.DerivedKeysApart (desk : Desk environment api) : Prop where
  drafts : ∀ call ∈ desk.deploys, ∃ origin ∈ desk.imports, origin.Stored ∧
    origin.drawn = call.draft.id ∧ origin.command = call.draft.toCreateDeploymentDraft
  deploys : ∀ call ∈ desk.deploys, ∀ command depth result,
    desk.pool.threads[call.index]? = some ⟨command, depth, .pure result⟩ →
      ∃ request start finish, command = Command.create request (some (deployKey call.draft.id)) ∧
        desk.Deployed call request start finish result
  imports : ∀ before call after, desk.imports = before ++ call :: after →
    call.key = none ∨ call.key = some "" →
      (call.ReturnsOwn ↔ ∀ earlier ∈ before, earlier.Stored →
        earlier.usedKey api = "import:" ++ api.draftDigest call.command →
          earlier.command = call.command)

/-- A derived key meets the keys of clients exactly when a client used it before. -/
theorem derived_keys_apart_iff (reached : desk.Reachable) : desk.DerivedKeysApart where
  drafts := reached.books.read
  deploys call begun command depth result found := by
    obtain ⟨thread, request, found', commanded, version⟩ := reached.commanded call begun
    rw [found, Option.some.injEq] at found'
    subst found'
    have commanded : command = .create request (some (deployKey call.draft.id)) := commanded
    subst commanded
    have origin : Reached environment api.service (Pool.initial State.initial) := .refl
    obtain ⟨finish, after, finished⟩ := origin.finished reached.pool (Nat.zero_le _) found
    rcases finished with ⟨id, command⟩ | ⟨start, before, _, unseen, ran⟩
    · cases command
    have consistent : Consistent start := before.consistent initial_consistent
    have serves := Alone.create_evolves consistent unseen ran
    have later : Evolves environment api.service State.initial finish := before.trans serves
    have path : Evolves environment api.service start desk.pool.state := serves.trans after
    have grows := path.journal_grows consistent
    refine ⟨request, start, finish, rfl, version, before, after, ran, ?_, ?_⟩
    · intro never bound
      rw [← reached.unused_iff grows never, ← version]
      exact ⟨fun anew => anew.unused unseen ran later,
        fun unused => unused.creates_anew before unseen ran later bound⟩
    · intro never untaken raised unbound
      exact ((reached.unused_iff grows never).mpr untaken).unbound before unseen ran unbound
  imports before call after split keyless := by
    refine (reached.books.judged before call after split).trans ?_
    have derived : call.usedKey api = "import:" ++ api.draftDigest call.command := by
      rcases keyless with absent | empty
      · simp only [ImportCall.usedKey, importKey, absent]
      · simp only [ImportCall.usedKey, importKey, empty, if_true]
    rw [ImportCall.KeyFree, derived]

/-- Steps of the service alone are steps of the desk, when clients chose their keys
within the bound. -/
theorem Desk.serves {pool : Pool (api.service.system environment)}
    (path : Relation.ReflTransGen Interaction.Step desk.pool pool)
    (admitted : ∀ thread ∈ pool.threads, AdmittedCommand thread.command) :
    Relation.ReflTransGen Desk.Step desk { desk with pool } := by
  induction path with
  | refl => exact .refl
  | @tail middle last _ step ih =>
      refine (ih fun thread member => ?_).tail (.served step fun thread found =>
        admitted thread (List.mem_of_getElem? found))
      obtain ⟨index, found⟩ := List.getElem?_of_mem member
      obtain ⟨after, found', command⟩ := step.command_of_thread found
      exact command ▸ admitted after (List.mem_of_getElem? found')

/-- A client's request, run alone for at most `fuel` steps. -/
def Desk.rehearseRequest (engines : EngineScript)
    (admits : ∀ state op, environment state.database op (engines.reply state op)) (fuel : Nat)
    (command : Command) (desk : Desk environment api) : Desk environment api :=
  { desk with pool := rehearse engines admits fuel command desk.pool }

/-- A deploy, with its thread run alone for at most `fuel` steps. -/
def Desk.rehearseDeploy (engines : EngineScript)
    (admits : ∀ state op, environment state.database op (engines.reply state op)) (fuel : Nat)
    (draft : DeploymentDraft) (request : CreateDeploymentRequest) (desk : Desk environment api) :
    Desk environment api :=
  { desk.beginDeploy draft request with
    pool := rehearse engines admits fuel (.create request (some (deployKey draft.id))) desk.pool }

section Rehearsed

variable {engines : EngineScript}
variable {admits : ∀ state op, environment state.database op (engines.reply state op)} {fuel : Nat}

theorem admitted_rehearse {pool : Pool (api.service.system environment)} {command : Command}
    (earlier : ∀ thread ∈ pool.threads, AdmittedCommand thread.command)
    (admitted : AdmittedCommand command) :
    ∀ thread ∈ (rehearse engines admits fuel command pool).threads,
      AdmittedCommand thread.command := by
  intro thread member
  rcases List.mem_append.mp member with there | last
  · exact earlier thread there
  · rw [List.mem_singleton.mp last]
    exact admitted

theorem Desk.Reachable.request (reached : desk.Reachable) {command : Command}
    (quiescent : desk.pool.Quiescent)
    (earlier : ∀ thread ∈ desk.pool.threads, AdmittedCommand thread.command)
    (admitted : AdmittedCommand command) :
    (desk.rehearseRequest engines admits fuel command).Reachable :=
  Relation.ReflTransGen.trans reached
    (Desk.serves (rehearse_reaches quiescent) (admitted_rehearse earlier admitted))

theorem Desk.Reachable.deploy (reached : desk.Reachable) {draftId : Uuid}
    {command : DeployDraftRequest} {draft : DeploymentDraft} {request : CreateDeploymentRequest}
    (prepared : api.prepareDeploy desk.store draftId command = .ok (draft, request))
    (quiescent : desk.pool.Quiescent)
    (earlier : ∀ thread ∈ desk.pool.threads, AdmittedCommand thread.command)
    (admitted : AdmittedKey (some (deployKey draft.id))) :
    (desk.rehearseDeploy engines admits fuel draft request).Reachable := by
  have begun : (desk.beginDeploy draft request).Reachable :=
    Relation.ReflTransGen.tail reached (.deploying prepared)
  have path : Relation.ReflTransGen Interaction.Step (desk.beginDeploy draft request).pool
      (rehearse engines admits fuel (.create request (some (deployKey draft.id))) desk.pool) :=
    rehearse_resumes quiescent (Nat.zero_le fuel)
  exact Relation.ReflTransGen.trans begun (Desk.serves path (admitted_rehearse earlier admitted))

end Rehearsed

end Runs

namespace Sample

/-- A full-model version. -/
def version : ModelVersionDocument where
  members := [("id", .str "version-1"), ("composition", .str "FULL_MODEL"),
    ("fullModelArtifact", .obj [])]
  id := "version-1"
  composition := .fullModel
  hasId := rfl
  hasComposition := rfl

def api : Api where
  service := CyreneReactor.Sample.service
  draftDigest command := command.sourceRef.uri
  validateArtifactRef _ := some CyreneReactor.Sample.artifact

def firstDraft : Uuid := ⟨0⟩

def document (uri : String) : CreateDeploymentDraft := ⟨⟨uri, firstDraft, 1⟩, version⟩

/-- A draft was imported without a key. -/
def imported : Desk .unrestricted api :=
  (Desk.initial .unrestricted api).answerImport (document "cyrene://a") none firstDraft .epoch

/-- A client then created a deployment under the key of the draft. -/
def taken : Desk .unrestricted api :=
  imported.rehearseRequest CyreneReactor.Sample.replies.engines (fun _ _ => trivial) 40
    (.create CyreneReactor.Sample.request (some (deployKey firstDraft)))

/-- The deploy of the draft under another name. -/
def deployCommand : DeployDraftRequest := ⟨"deployed", "default", none⟩

def draft : DeploymentDraft := Api.newDraft (document "cyrene://a") firstDraft .epoch

def deployRequest : CreateDeploymentRequest where
  name := "deployed"
  modelArtifact := some CyreneReactor.Sample.artifact
  composition := .fullModel
  modelVersion := some version
  servingBindingId := "default"
  nodeRef := none
  validated := ⟨rfl, rfl⟩

def refused : Desk .unrestricted api :=
  taken.rehearseDeploy CyreneReactor.Sample.replies.engines (fun _ _ => trivial) 10 draft
    deployRequest

theorem imported_reachable : imported.Reachable :=
  .single (.imported _ _ _ _ (fun _ same => by cases same) fun _ member =>
    absurd member List.not_mem_nil)

theorem admittedKey : AdmittedKey (some (deployKey firstDraft)) := by
  intro text same
  cases same
  decide

theorem refused_reachable : refused.Reachable := by
  have begun : taken.Reachable :=
    imported_reachable.request (Pool.initial_quiescent _)
      (fun _ member => absurd member List.not_mem_nil) admittedKey
  have prepared : api.prepareDeploy taken.store firstDraft deployCommand =
      .ok (draft, deployRequest) := rfl
  refine begun.deploy prepared (by decide) ?_ admittedKey
  exact admitted_rehearse (fun _ member => absurd member List.not_mem_nil) admittedKey

/-- A client used the key of the document another one is about to import. -/
def mixed : Desk .unrestricted api :=
  ((Desk.initial .unrestricted api).answerImport (document "cyrene://b")
    (some "import:cyrene://a") firstDraft .epoch).answerImport (document "cyrene://a") none ⟨1⟩
    .epoch

theorem mixed_reachable : mixed.Reachable := by
  have first : Desk.Reachable ((Desk.initial .unrestricted api).answerImport
      (document "cyrene://b") (some "import:cyrene://a") firstDraft .epoch) :=
    .single (.imported _ _ _ _ (fun _ same => by cases same; decide)
      fun _ member => absurd member List.not_mem_nil)
  refine first.tail (.imported _ _ _ _ (fun _ same => by cases same) fun call member => ?_)
  rw [List.mem_singleton.mp member]
  decide

end Sample

theorem derived_keys_apart_iff_refused : Sample.refused.DerivedKeysApart :=
  derived_keys_apart_iff Sample.refused_reachable

/-- A deploy and an import are refused for keys that clients chose before. -/
theorem derived_keys_meet_client_keys :
    (∃ desk : Desk .unrestricted Sample.api, desk.Reachable ∧ ∃ call command depth,
      desk.deploys = [call] ∧ desk.pool.threads[call.index]? = some ⟨command, depth,
        .pure (.error (.product Database.idempotencyConflict))⟩) ∧
    ∃ desk : Desk .unrestricted Sample.api, desk.Reachable ∧ ∃ before call,
      desk.imports = before ++ [call] ∧ call.key = none ∧
        call.answer = .error (.product DraftStore.draftConflict) := by
  constructor
  · exact ⟨Sample.refused, Sample.refused_reachable, ⟨1, Sample.draft⟩, _, 0, rfl, rfl⟩
  · exact ⟨Sample.mixed, Sample.mixed_reachable, [_], _, rfl, rfl, rfl⟩

end Drafts

end CyreneReactor
