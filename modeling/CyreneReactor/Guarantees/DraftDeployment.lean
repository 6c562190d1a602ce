import CyreneReactor.Guarantees.DerivedKeys

namespace CyreneReactor

open Interaction ReactorService Relational

/-! A draft starts one deployment.

`deploy_draft` may be called again before the first call has answered, by
several clients and with different commands, and each call saves the draft it
read before it began.  All of them create under the one key of the draft, so the
row of that key says which deployment the draft stands for.
-/

section Keys

variable {environment : Environment} {service : ReactorService}
variable {state later : State} {key digest : String} {id : Uuid}

/-- The key stands for a stored deployment, created for a request of this digest. -/
structure BoundTo (state : State) (key digest : String) (id : Uuid) : Prop where
  row : ⟨Database.createDeploymentScope, key, digest, id⟩ ∈ state.database.idempotency.rows
  stored : ∃ slot, state.database.slot id = some slot

theorem Intents.bound (intents : Intents service state)
    (row : ⟨Database.createDeploymentScope, key, digest, id⟩ ∈ state.database.idempotency.rows) :
    BoundTo state key digest id := by
  obtain ⟨_, event, member, deployment, creates, same, _⟩ := intents.named row
  have drawn : deployment.id = id := same
  exact ⟨row, drawn ▸ intents.stored event member deployment creates⟩

theorem BoundTo.unique {digest' : String} {id' : Uuid} (intents : Intents service state)
    (bound : BoundTo state key digest id) (other : BoundTo state key digest' id') :
    digest = digest' ∧ id = id' := by
  have first := intents.find bound.row
  have second := intents.find other.row
  rw [first, Option.some.injEq, IdempotencyRow.mk.injEq] at second
  exact ⟨second.2.2.1, second.2.2.2⟩

theorem BoundTo.mono (bound : BoundTo state key digest id)
    (before : Evolves environment service State.initial state)
    (path : Evolves environment service state later) : BoundTo later key digest id := by
  have whole : Evolves environment service State.initial later := before.trans path
  exact whole.intents.bound (path.remembers (before.consistent initial_consistent) bound.row)

theorem row_of_resolved
    (known : state.database.resolveIdempotency (some key) digest = .ok (some id)) :
    ⟨Database.createDeploymentScope, key, digest, id⟩ ∈ state.database.idempotency.rows := by
  simp only [Database.resolveIdempotency] at known
  cases lookup : state.database.findIdempotency key with
  | none => simp [lookup] at known
  | some row =>
      simp only [lookup] at known
      split at known
      · cases known
      · rename_i same
        obtain ⟨member, wanted⟩ := Table.find?_mem lookup
        simp only [Bool.and_eq_true, beq_iff_eq] at wanted
        cases known
        obtain ⟨scope, used, hashed, _⟩ := row
        obtain ⟨rfl, rfl⟩ := wanted
        obtain rfl := not_not.mp same
        exact member

/-- A keyed create that returns, returns the deployment its key stands for. -/
theorem Alone.create_bound {start finish : State} {index : Nat} {request : CreateDeploymentRequest}
    {deployment : Deployment} (before : Evolves environment service State.initial start)
    (unseen : Unseen index start)
    (ran : Alone environment service ⟨index, .create request (some key)⟩ 0
      (service.body (.create request (some key))).attempt start 0 (.pure (.ok deployment))
      finish) :
    BoundTo finish key (service.requestHash request) deployment.id := by
  have consistent : Consistent start := before.consistent initial_consistent
  have path := Alone.create_evolves consistent unseen ran
  have whole : Evolves environment service State.initial finish := before.trans path
  have creates := Alone.create consistent unseen ran
  generalize returned : Except.ok deployment = result at creates
  cases creates with
  | conflicting | missing | unbound => cases returned
  | @replayed id slot new calls recent _ _ known here reads inside =>
      have bound := whole.intents.bound (path.remembers consistent (row_of_resolved known))
      have drawn : deployment.id = id := by
        cases reads with
        | unchanged _ current =>
            rw [current deployment returned.symm]
            exact (Database.slot_eq_some here).2.1
        | reconciled =>
            cases returned
            exact (Database.slot_eq_some inside.here).2.1
      exact drawn ▸ bound
  | launched unknown _ engine =>
      subst returned
      have anew := (before.intents.resolves_iff.mp unknown).creates_anew before unseen ran whole
        engine
      obtain ⟨event, member, own, created, creates, _, returns⟩ := anew
      have same : deployment.id = created.id := (returns deployment rfl).1
      have row := whole.intents.row rfl (created_iff.mpr ⟨event, member, own, created, creates,
        same.symm⟩)
      exact whole.intents.bound row

end Keys

namespace Drafts

section Desks

variable {environment : Environment} {api : Api} {desk next later : Desk environment api}

/-- A deploy that was answered with a deployment. -/
def Desk.Answered (desk : Desk environment api) (call : DeployCall) (deployment : Deployment) :
    Prop :=
  ∃ command depth,
    desk.pool.threads[call.index]? = some ⟨command, depth, .pure (.ok deployment)⟩

/-- The deployment was created for the draft: under its key, and for a request of
its own model version. -/
def Desk.CreatedFor (desk : Desk environment api) (draft : DeploymentDraft) (id : Uuid) : Prop :=
  ∃ request : CreateDeploymentRequest, request.modelVersion = some draft.modelVersion ∧
    BoundTo desk.pool.state (deployKey draft.id) (api.service.requestHash request) id

theorem Desk.CreatedFor.unique {draft other : DeploymentDraft} {id otherId : Uuid}
    (reached : desk.Reachable) (created : desk.CreatedFor draft id)
    (created' : desk.CreatedFor other otherId) (same : draft.id = other.id) : id = otherId := by
  obtain ⟨_, _, bound⟩ := created
  obtain ⟨_, _, bound'⟩ := created'
  rw [← same] at bound'
  have origin : Reached environment api.service (Pool.initial State.initial) := .refl
  exact (bound.unique (origin.evolves reached.pool).1.intents bound').2

/-- What the service did before a step, it has done after it. -/
theorem Desk.Step.evolves (reached : desk.Reachable) (step : Desk.Step desk next) :
    Evolves environment api.service desk.pool.state next.pool.state := by
  cases step with
  | served step => exact (reached.pool.evolves (.single step)).1
  | imported | deployed => exact .refl
  | deploying => exact (reached.pool.evolves (.single (.start _ _))).1

theorem Desk.CreatedFor.step {draft : DeploymentDraft} {id : Uuid} (reached : desk.Reachable)
    (step : Desk.Step desk next) (created : desk.CreatedFor draft id) :
    next.CreatedFor draft id := by
  obtain ⟨request, version, bound⟩ := created
  have origin : Reached environment api.service (Pool.initial State.initial) := .refl
  exact ⟨request, version, bound.mono (origin.evolves reached.pool).1 (step.evolves reached)⟩

/-- A deploy that is answered, is answered with a deployment created for its draft. -/
theorem Desk.Reachable.createdFor (reached : desk.Reachable) {call : DeployCall}
    (begun : call ∈ desk.deploys) {deployment : Deployment}
    (answered : desk.Answered call deployment) : desk.CreatedFor call.draft deployment.id := by
  obtain ⟨command, depth, found⟩ := answered
  obtain ⟨thread, request, found', commanded, version⟩ := reached.commanded call begun
  rw [found, Option.some.injEq] at found'
  subst found'
  have commanded : command = .create request (some (deployKey call.draft.id)) := commanded
  subst commanded
  have origin : Reached environment api.service (Pool.initial State.initial) := .refl
  obtain ⟨finish, after, finished⟩ := origin.finished reached.pool (Nat.zero_le _) found
  rcases finished with ⟨id, command⟩ | ⟨start, before, _, unseen, ran⟩
  · cases command
  have consistent : Consistent start := before.consistent initial_consistent
  have whole : Evolves environment api.service State.initial finish :=
    before.trans (Alone.create_evolves consistent unseen ran)
  exact ⟨request, version, (Alone.create_bound before unseen ran).mono whole after⟩

/-- The draft was saved by a deploy of it that was answered. -/
def Desk.SavedFor (desk : Desk environment api) (draftId : Uuid) : Prop :=
  ∃ call ∈ desk.deploys, call.index ∈ desk.saved ∧ call.draft.id = draftId

/-- A stored draft waits for its first deploy to be saved, or names the deployment
that was created for it. -/
inductive Desk.Told (desk : Desk environment api) (draft : DeploymentDraft) : Prop where
  | waiting (state : draft.state = .draft) (unnamed : draft.deploymentRef = none)
      (unsaved : ¬desk.SavedFor draft.id)
  | started {id : Uuid} {version : Nat} (state : draft.state = .started)
      (names : draft.deploymentRef = some (productRef "deployments" id version))
      (created : desk.CreatedFor draft id) (saved : desk.SavedFor draft.id)

theorem productRef_id {kind : String} {id id' : Uuid} {version version' : Nat}
    (same : productRef kind id version = productRef kind id' version') : id = id' :=
  congrArg ProductResourceRef.id same

/-- Two deploys that run as one thread are of one draft. -/
theorem Desk.Commanded.sameDraft (commanded : desk.Commanded) {first second : DeployCall}
    (begun : first ∈ desk.deploys) (begun' : second ∈ desk.deploys)
    (same : first.index = second.index) : first.draft.id = second.draft.id := by
  obtain ⟨thread, request, found, command, _⟩ := commanded first begun
  obtain ⟨thread', request', found', command', _⟩ := commanded second begun'
  rw [same, found', Option.some.injEq] at found
  subst found
  have command : Command.create request' (some (deployKey second.draft.id)) =
      .create request (some (deployKey first.draft.id)) := command'.symm.trans command
  rw [Command.create.injEq, Option.some.injEq] at command
  exact (deployKey_injective command.2).symm

theorem Desk.Reachable.saved_begun (reached : desk.Reachable) :
    ∀ index ∈ desk.saved, ∃ call ∈ desk.deploys, call.index = index := by
  induction reached with
  | refl => exact fun _ member => absurd member List.not_mem_nil
  | tail _ step ih =>
      intro index member
      cases step with
      | served | imported => exact ih index member
      | deploying =>
          obtain ⟨call, begun, same⟩ := ih index member
          exact ⟨call, List.mem_append_left _ begun, same⟩
      | deployed begun =>
          rcases List.mem_append.mp member with earlier | last
          · exact ih index earlier
          · exact ⟨_, begun, (List.mem_singleton.mp last).symm⟩

theorem Desk.Told.of_same {draft : DeploymentDraft} (told : desk.Told draft)
    (reached : desk.Reachable) (step : Desk.Step desk next)
    (saved : next.SavedFor draft.id ↔ desk.SavedFor draft.id) : next.Told draft := by
  cases told with
  | waiting state unnamed unsaved => exact .waiting state unnamed (mt saved.mp unsaved)
  | started state names created was =>
      exact .started state names (created.step reached step) (saved.mpr was)

theorem Desk.Told.step (reached : desk.Reachable)
    (told : ∀ draft ∈ desk.store.drafts.rows, desk.Told draft) (step : Desk.Step desk next) :
    ∀ draft ∈ next.store.drafts.rows, next.Told draft := by
  intro draft member
  have taken := step
  cases step with
  | served => exact (told draft member).of_same reached taken Iff.rfl
  | @imported command key id now admitted fresh =>
      have unused : ∀ draft ∈ desk.store.drafts.rows, draft.id ≠ id := by
        intro draft present same
        obtain ⟨call, there, _, drawn, _⟩ := reached.books.imported draft present
        exact fresh call there (drawn.trans same)
      have creates : DraftStore.Creates desk.store (Api.newDraft command id now)
          (importKey key (api.draftDigest command)) (api.draftDigest command)
          (api.importDraft desk.store command key id now) := DraftStore.createDraft_creates unused
      have member : draft ∈ (api.importDraft desk.store command key id now).2.drafts.rows := member
      have kept : draft ∈ desk.store.drafts.rows → (desk.answerImport command key id now).Told
          draft := fun there => (told draft there).of_same reached taken Iff.rfl
      generalize api.importDraft desk.store command key id now = outcome at creates member
      cases creates with
      | conflict | replayed => exact kept member
      | stored _ drafts =>
          have member : draft ∈ _ := drafts ▸ member
          rcases List.mem_append.mp member with there | last
          · exact kept there
          obtain rfl := List.mem_singleton.mp last
          refine .waiting rfl rfl ?_
          rintro ⟨call, begun, _, same⟩
          obtain ⟨origin, there, _, drawn, _⟩ := reached.books.read call begun
          exact fresh origin there (drawn.trans same)
  | @deploying draftId command read request prepared =>
      refine (told draft member).of_same reached taken ⟨?_, ?_⟩
      · rintro ⟨call, begun, saved, same⟩
        rcases List.mem_append.mp begun with earlier | last
        · exact ⟨call, earlier, saved, same⟩
        · -- The thread of the new deploy is younger than all that were saved.
          obtain rfl := List.mem_singleton.mp last
          obtain ⟨older, begun', there⟩ := reached.saved_begun _ saved
          obtain ⟨thread, _, found, _⟩ := reached.commanded older begun'
          have bound := (List.getElem?_eq_some_iff.mp found).1
          rw [there] at bound
          exact absurd bound (Nat.lt_irrefl _)
      · rintro ⟨call, begun, saved, same⟩
        exact ⟨call, List.mem_append_left _ begun, saved, same⟩
  | @deployed call command depth deployment begun found unsaved =>
      have answered : desk.Answered call deployment := ⟨command, depth, found⟩
      rcases Table.mem_insertOrReplace.mp member with ⟨there, apart⟩ | rfl
      · have different : draft.id ≠ call.draft.id := by
          simpa [DeploymentDraft.clash, Api.startedDraft] using apart
        refine (told draft there).of_same reached taken ⟨?_, ?_⟩
        · rintro ⟨other, begun', saved, same⟩
          rcases List.mem_append.mp saved with earlier | last
          · exact ⟨other, begun', earlier, same⟩
          · have twin := reached.commanded.sameDraft begun' begun (List.mem_singleton.mp last)
            exact absurd (same.symm.trans twin) different
        · rintro ⟨other, begun', saved, same⟩
          exact ⟨other, begun', List.mem_append_left _ saved, same⟩
      · refine .started rfl rfl ((reached.createdFor begun answered).step reached taken) ?_
        exact ⟨call, begun, List.mem_append_right _ (List.mem_singleton_self _), rfl⟩

theorem Desk.Reachable.told (reached : desk.Reachable) :
    ∀ draft ∈ desk.store.drafts.rows, desk.Told draft := by
  induction reached with
  | refl => exact fun _ member => absurd member List.not_mem_nil
  | tail reached step ih => exact Desk.Told.step reached ih step

theorem Desk.SavedFor.step {draftId : Uuid} (saved : desk.SavedFor draftId)
    (step : Desk.Step desk next) : next.SavedFor draftId := by
  obtain ⟨call, begun, noted, same⟩ := saved
  cases step with
  | served | imported => exact ⟨call, begun, noted, same⟩
  | deploying => exact ⟨call, List.mem_append_left _ begun, noted, same⟩
  | deployed => exact ⟨call, begun, List.mem_append_left _ noted, same⟩

/-- No draft is lost, and none is given another document. -/
theorem Desk.Step.keeps (reached : desk.Reachable) (step : Desk.Step desk next)
    {draft : DeploymentDraft} (stored : draft ∈ desk.store.drafts.rows) :
    ∃ kept ∈ next.store.drafts.rows, kept.id = draft.id ∧
      kept.toCreateDeploymentDraft = draft.toCreateDeploymentDraft := by
  have taken : next.Reachable := Relation.ReflTransGen.tail reached step
  obtain ⟨call, member, imported, drawn, document⟩ := reached.books.imported draft stored
  have later : call ∈ next.imports := by
    cases step with
    | imported => exact List.mem_append_left _ member
    | served | deploying | deployed => exact member
  obtain ⟨kept, there, drawn', document'⟩ := taken.books.kept call later imported
  exact ⟨kept, there, drawn'.trans drawn, document'.trans document⟩

/-- Each draft starts one deployment at most. -/
structure Desk.StartsOnce (desk : Desk environment api) : Prop where
  told : ∀ draft ∈ desk.store.drafts.rows, desk.Told draft
  oneDeployment : ∀ first ∈ desk.deploys, ∀ second ∈ desk.deploys,
    first.draft.id = second.draft.id → ∀ deployment other, desk.Answered first deployment →
      desk.Answered second other → deployment.id = other.id
  oneStart : ∀ draftId, ((State.journal desk.pool.state).filter
    (Event.startsFor (deployKey draftId))).length ≤ 1

/-- A started draft stays started, by the deployment it names. -/
def Desk.KeepsStarted (desk later : Desk environment api) : Prop :=
  ∀ draft ∈ desk.store.drafts.rows, ∀ id version, draft.state = .started →
    draft.deploymentRef = some (productRef "deployments" id version) →
    ∃ kept ∈ later.store.drafts.rows, ∃ version', kept.id = draft.id ∧
      kept.toCreateDeploymentDraft = draft.toCreateDeploymentDraft ∧ kept.state = .started ∧
      kept.deploymentRef = some (productRef "deployments" id version')

theorem Desk.Reachable.startsOnce (reached : desk.Reachable) : desk.StartsOnce where
  told := reached.told
  oneDeployment first begun second begun' same deployment other answered answered' :=
    (reached.createdFor begun answered).unique reached (reached.createdFor begun' answered') same
  oneStart draftId := by
    have origin : Reached environment api.service (Pool.initial State.initial) := .refl
    have evolves := (origin.evolves reached.pool).1
    exact (evolves.intents.keysCreateOnce evolves.launchers).oneLaunch (deployKey draftId)

/-- Where a started draft stands later in the run. -/
theorem Desk.Reachable.follows (reached : desk.Reachable)
    (run : Relation.ReflTransGen Desk.Step desk later) {draft : DeploymentDraft} {id : Uuid}
    (stored : draft ∈ desk.store.drafts.rows) (created : desk.CreatedFor draft id)
    (saved : desk.SavedFor draft.id) :
    (∃ kept ∈ later.store.drafts.rows, kept.id = draft.id ∧
      kept.toCreateDeploymentDraft = draft.toCreateDeploymentDraft) ∧
      later.CreatedFor draft id ∧ later.SavedFor draft.id := by
  induction run with
  | refl => exact ⟨⟨draft, stored, rfl, rfl⟩, created, saved⟩
  | tail before step ih =>
      have middle := Relation.ReflTransGen.trans reached before
      obtain ⟨⟨kept, there, same, document⟩, created, saved⟩ := ih
      obtain ⟨next, there', same', document'⟩ := step.keeps middle there
      exact ⟨⟨next, there', same'.trans same, document'.trans document⟩,
        created.step middle step, saved.step step⟩

/-- A draft starts one deployment at most, is never started by another, and once
started stays so. -/
theorem drafts_start_one_deployment (reached : desk.Reachable)
    (run : Relation.ReflTransGen Desk.Step desk later) :
    later.StartsOnce ∧ desk.KeepsStarted later := by
  have ended : later.Reachable := Relation.ReflTransGen.trans reached run
  refine ⟨ended.startsOnce, ?_⟩
  intro draft stored id version state names
  cases reached.told draft stored with
  | waiting waits =>
      rw [waits] at state
      cases state
  | @started own _ _ names' created saved =>
      obtain rfl : own = id := productRef_id (Option.some.inj (names'.symm.trans names))
      obtain ⟨⟨kept, there, same, document⟩, created, saved⟩ :=
        reached.follows run stored created saved
      cases ended.told kept there with
      | waiting _ _ unsaved =>
          rw [same] at unsaved
          exact absurd saved unsaved
      | @started other version' state' names' created' =>
          obtain rfl := created.unique ended created' same.symm
          exact ⟨kept, there, version', same, document, state', names'⟩

end Desks

namespace Sample

/-- The draft is deployed, and the deploy is answered. -/
def deployed : Desk .unrestricted api :=
  imported.rehearseDeploy CyreneReactor.Sample.replies.engines (fun _ _ => trivial) 80 draft
    deployRequest

/-- Before the answer is saved the draft is deployed again. -/
def redeployed : Desk .unrestricted api :=
  deployed.rehearseDeploy CyreneReactor.Sample.replies.engines (fun _ _ => trivial) 80 draft
    deployRequest

theorem redeployed_reachable : redeployed.Reachable := by
  have prepared : api.prepareDeploy imported.store firstDraft deployCommand =
      .ok (draft, deployRequest) := rfl
  have none : ∀ thread ∈ imported.pool.threads, AdmittedCommand thread.command :=
    fun _ member => absurd member List.not_mem_nil
  have once : deployed.Reachable :=
    imported_reachable.deploy prepared (Pool.initial_quiescent _) none admittedKey
  have again : api.prepareDeploy deployed.store firstDraft deployCommand =
      .ok (draft, deployRequest) := rfl
  exact once.deploy again (by decide) (admitted_rehearse none admittedKey) admittedKey

theorem redeployed_answered : ∃ first second, redeployed.Answered ⟨0, draft⟩ first ∧
    redeployed.Answered ⟨1, draft⟩ second ∧ first.id = second.id :=
  ⟨_, _, ⟨_, 0, rfl⟩, ⟨_, 0, rfl⟩, rfl⟩

end Sample

/-- Two deploys that overlapped are answered with one deployment.  The draft is started by the
first that is saved and stays so after the second. -/
theorem drafts_start_one_deployment_sampled :
    ∃ first second, first.id = second.id ∧
      ((Sample.redeployed.finishDeploy ⟨0, Sample.draft⟩ first).finishDeploy ⟨1, Sample.draft⟩
        second).StartsOnce ∧
      (Sample.redeployed.finishDeploy ⟨0, Sample.draft⟩ first).KeepsStarted
        ((Sample.redeployed.finishDeploy ⟨0, Sample.draft⟩ first).finishDeploy ⟨1, Sample.draft⟩
          second) := by
  obtain ⟨first, second, ⟨_, _, found⟩, ⟨_, _, found'⟩, same⟩ := Sample.redeployed_answered
  have saved := Desk.Step.deployed List.mem_cons_self found List.not_mem_nil
  refine ⟨first, second, same, drafts_start_one_deployment
    (Relation.ReflTransGen.tail Sample.redeployed_reachable saved) (.single ?_)⟩
  have unsaved : (1 : Nat) ∉ [0] := by decide
  exact .deployed (List.mem_cons_of_mem _ (List.mem_singleton_self _)) found' unsaved

end Drafts

end CyreneReactor
