import CyreneReactor.Lifecycle.Outcome

namespace CyreneReactor

open Interaction ReactorService

/-! `_launch` comes to nothing but the outcomes of `Launches`, by lawful steps. -/

/-- What a clean-up leaves for the failure it belongs to. -/
def cleanupFailure : Except Raised Unit → Except Raised (Option ServingEngineFailure)
  | .ok _ => .ok none
  | .error (.serving failure) => .ok (some failure)
  | .error raised => .error raised

/-- What `_fail_composed_identity` raises after its clean-up. -/
def mismatchRaised (version : ModelVersionDocument) (handle : EngineHandle) :
    Except Raised Unit → Raised
  | .ok _ => .serving (identityMismatch version handle (.ok ()))
  | .error (.serving failure) => .serving (identityMismatch version handle (.error failure))
  | .error raised => raised

/-- What a verdict makes of the launch. -/
def ReactorService.settleVerdict (service : ReactorService) (deployment : Deployment) :
    Verdict → Service Deployment
  | .aborted raised => throw raised
  | .failed failure => service.failLaunch deployment failure
  | .verified handle => service.finishLaunch deployment handle

namespace InSection

variable {environment : Environment} {service : ReactorService} {caller : Caller Command}
variable {origin state : State} {id : Uuid} {slot : Slot} {calls recent : List Exchange}

/-- A write of a launch that moves the version on is lawful as soon as it is a
transition: no launch writes STOPPED. -/
theorem lawful_of_mayLaunch {old new : Slot} {journal : List Event}
    (may : MayLaunch caller old.deployment.id journal) (transition : Transition old new)
    (running : new.deployment.observedState ≠ .stopped)
    (bumped : old.deployment.resourceVersion < new.deployment.resourceVersion) :
    LawfulWrite caller journal old new where
  transition := transition
  allowed := may.mayWrite
  released stopped := absurd stopped running
  announced same := absurd same bumped.ne'

section Parts

variable (inside : Inside origin id slot calls recent state)
variable (starting : slot.deployment.observedState = .starting)
variable (may : MayLaunch caller id origin.journal)
include inside starting may

theorem prepareLaunch {goal : Except Raised Deployment → State → Prop}
    (holds : ∀ made new outcome recent' after,
      Prepares environment service slot made new outcome →
      Inside origin id new (calls ++ made) recent' after →
      goal (outcome.map fun _ => new.deployment) after) :
    InSection environment service caller (service.prepareLaunch slot.deployment) goal state := by
  have key := inside.id_eq
  refine appendEvent_bind inside fun queued inside => ?_
  cases bound : service.engineFor slot.deployment.servingBindingId with
  | error raised =>
      exact ofExcept_bind (holds [] slot (.error raised) recent queued (.unbound bound)
        (by rw [List.append_nil]; exact inside))
  | ok engine =>
      refine ofExcept_bind (bind (port inside key ?_ fun answer after admits inside => ?_))
      · exact ⟨⟨slot, by rw [key]; exact inside.here, starting⟩,
          by rw [key]; exact inside.mayLaunch may⟩
      match answer with
      | .error raised => exact holds _ slot (.error raised) _ after (.refused bound admits) inside
      | .ok none => exact pure (holds _ slot (.ok ()) _ after (.nothing bound admits) inside)
      | .ok (some handle) =>
          refine utcNow_bind fun now => bind (nextEndpoint inside ?_ ?_)
          · intro endpoint built inside placed provisioning url named
            have allowed : MayLaunch caller slot.deployment.id built.journal := by
              rw [key]
              exact inside.mayLaunch may
            have announced : ∃ exchange ∈ sinceWrite slot.deployment.id built.journal,
                exchange.announces slot.deployment.id = true := by
              have valid : handle.model ≠ some "" := named ▸ endpoint.named
              rw [key, inside.since]
              exact ⟨_, List.mem_append_right _ (List.mem_singleton_self _),
                by simp [Exchange.announces, key, valid]⟩
            refine bind (storeEncoded (fun encodes => savePair inside key rfl placed
              { transition := .prepared starting placed.follows provisioning
                allowed := allowed.mayWrite
                released := by simp [starting]
                announced := fun _ => announced } ?_) fun refused => ?_)
            · intro saved inside _
              exact pure (holds _ _ (.ok ()) _ saved
                (.pending bound admits placed.follows provisioning url named encodes) inside)
            · exact holds _ slot (.error _) _ built
                (.unsaved bound admits (by simp [EngineHandle.storable, refused])) inside
          · intro empty built inside
            exact holds _ slot (.error _) _ built
              (.unsaved bound admits (by simp [EngineHandle.storable, empty])) inside

/-- The call itself, by an engine that takes the keyword. -/
theorem stopWithModelVersion {engine : Engine} {handle : EngineHandle} {identity : String}
    {version : Option ModelVersionDocument} {goal : Except Raised Unit → State → Prop}
    (takes : engine.takesModelVersion .stop = true)
    (holds : ∀ made outcome recent' after,
      Cleans environment slot engine handle identity version made outcome →
      Inside origin id slot (calls ++ made) recent' after → goal outcome after) :
    InSection environment service caller (stopWithModelVersion engine handle.executionRef
      handle.endpointUrl slot.deployment.id identity version) goal state := by
  have key := inside.id_eq
  unfold ReactorService.stopWithModelVersion
  rw [if_pos takes]
  have allowed : MayLaunch caller slot.deployment.id state.journal := by
    rw [key]
    exact inside.mayLaunch may
  refine bind (port inside key ⟨slot, by rw [key]; exact inside.here, .inl ⟨starting, allowed⟩⟩
    fun answer after admits inside => ?_)
  have outcome := holds _ _ _ after (.called takes admits) inside
  match answer, outcome with
  | .ok observation, outcome => exact pure outcome
  | .error raised, outcome => exact outcome

/-- The clean-up of a composed model. -/
theorem cleanComposed {engine : Engine} {handle : EngineHandle} {identity : String}
    {version : ModelVersionDocument} {goal : Except Raised Unit → State → Prop}
    (holds : ∀ made outcome recent' after,
      Cleans environment slot engine handle identity (some version) made outcome →
      Inside origin id slot (calls ++ made) recent' after → goal outcome after) :
    InSection environment service caller (do
      Fallible.ofExcept (requireModelVersionKeyword engine .stop)
      ReactorService.stopWithModelVersion engine handle.executionRef handle.endpointUrl
        slot.deployment.id identity (some version)) goal state := by
  cases takes : engine.takesModelVersion .stop with
  | true =>
      refine ofExcept_bind ?_
      simp only [requireModelVersionKeyword, takes, if_true]
      exact stopWithModelVersion inside starting may takes holds
  | false =>
      have outcome := holds [] _ recent state (.unsupported rfl takes)
        (by rw [List.append_nil]; exact inside)
      refine ofExcept_bind ?_
      simp only [requireModelVersionKeyword, takes, Bool.false_eq_true, if_false] at outcome ⊢
      exact outcome

/-- The clean-up of either kind of model. -/
theorem clean {engine : Engine} {handle : EngineHandle} {identity : String}
    {version : Option ModelVersionDocument} {goal : Except Raised Unit → State → Prop}
    (holds : ∀ made outcome recent' after,
      Cleans environment slot engine handle identity version made outcome →
      Inside origin id slot (calls ++ made) recent' after → goal outcome after) :
    InSection environment service caller (
      if version.isSome then do
        Fallible.ofExcept (requireModelVersionKeyword engine .stop)
        ReactorService.stopWithModelVersion engine handle.executionRef handle.endpointUrl
          slot.deployment.id identity version
      else
        ReactorService.stopWithModelVersion engine handle.executionRef handle.endpointUrl
          slot.deployment.id identity version) goal state := by
  cases version with
  | some version => exact cleanComposed inside starting may holds
  | none =>
      cases takes : engine.takesModelVersion .stop with
      | true => exact stopWithModelVersion inside starting may takes holds
      | false =>
          have outcome := holds [] _ recent state (.untyped rfl takes)
            (by rw [List.append_nil]; exact inside)
          simp only [Option.isSome_none, Bool.false_eq_true, if_false,
            ReactorService.stopWithModelVersion, takes]
          exact throw outcome

theorem cleanupStartedExecution {engine : Engine} {handle : EngineHandle} {identity : String}
    {version : Option ModelVersionDocument}
    {goal : Except Raised (Option ServingEngineFailure) → State → Prop}
    (holds : ∀ made outcome recent' after,
      Cleans environment slot engine handle identity version made outcome →
      Inside origin id slot (calls ++ made) recent' after →
      goal (cleanupFailure outcome) after) :
    InSection environment service caller
      (cleanupStartedExecution engine slot.deployment handle identity version) goal state := by
  refine bind (catchFailure (clean inside starting may
    fun made outcome recent' after cleans inside => ?_))
  have settled := holds made outcome recent' after cleans inside
  match outcome, settled with
  | .ok _, settled => exact pure settled
  | .error (.serving failure), settled => exact pure settled
  | .error (.product error), settled => exact settled
  | .error (.other kind), settled => exact settled

/-- The clean-up of `_fail_composed_identity`, which always raises. -/
theorem failComposedIdentity {engine : Engine} {handle : EngineHandle}
    {version : ModelVersionDocument} {goal : Except Raised Unit → State → Prop}
    (holds : ∀ made outcome recent' after,
      Cleans environment slot engine handle version.id (some version) made outcome →
      Inside origin id slot (calls ++ made) recent' after →
      goal (.error (mismatchRaised version handle outcome)) after) :
    InSection environment service caller
      (failComposedIdentity engine slot.deployment version handle) goal state := by
  refine bind (catchFailure (cleanComposed inside starting may
    fun made outcome recent' after cleans inside => ?_))
  have settled := holds made outcome recent' after cleans inside
  match outcome, settled with
  | .ok _, settled => exact throw settled
  | .error (.serving failure), settled => exact throw settled
  | .error (.product error), settled => exact settled
  | .error (.other kind), settled => exact settled

omit starting may in
theorem verifyStartedModelIdentity {engine : Engine} {handle : EngineHandle}
    {goal : Except Raised Unit → State → Prop}
    (starting : slot.deployment.observedState = .starting)
    (holds : ∀ made outcome recent' after,
      Verifies environment slot engine handle made outcome →
      Inside origin id slot (calls ++ made) recent' after → goal outcome after) :
    InSection environment service caller
      (verifyStartedModelIdentity engine slot.deployment.id handle) goal state := by
  have key := inside.id_eq
  unfold ReactorService.verifyStartedModelIdentity
  cases offered : engine.verifiesServedModel with
  | true =>
      exact port inside key ⟨slot, by rw [key]; exact inside.here, starting⟩
        fun answer after admits inside => holds _ _ _ after (.called offered admits) inside
  | false =>
      exact pure (holds [] _ recent state (.absent offered)
        (by rw [List.append_nil]; exact inside))

/-- The handler's clean-up of an execution that was started and not yet released. -/
theorem compensate {engine : Engine} {handle : EngineHandle} {model : ArtifactRef}
    {version : Option ModelVersionDocument} {failure : ServingEngineFailure}
    {post : Except Raised Deployment → State → Prop}
    (settle : ∀ made outcome recent' after,
      Cleans environment slot engine handle (cleanupIdentity version model) version made outcome →
      Inside origin id slot (calls ++ made) recent' after →
      InSection environment service caller
        (service.settleVerdict slot.deployment (.unverified failure outcome)) post after) :
    InSection environment service caller
      (service.handleAttempt slot.deployment (.error
        ({ model := some model, engine := some engine, modelVersion := version
           handle := some handle }, .serving failure)))
      post state := by
  refine bind (bind (cleanupStartedExecution inside starting may
    fun made outcome recent' after cleans inside => ?_))
  have settled := settle made outcome recent' after cleans inside
  match outcome, settled with
  | .ok _, settled => exact pure settled
  | .error (.serving failure), settled => exact pure settled
  | .error (.product error), settled => exact settled.2
  | .error (.other kind), settled => exact settled.2

omit inside starting may in
/-- A failure that finds nothing to release goes straight to its verdict. -/
theorem uncompensated {deployment : Deployment} {locals : LaunchLocals} {raised : Raised}
    {post : Except Raised Deployment → State → Prop}
    (released : locals.handle = none ∨ locals.cleanupHandled = true)
    (settle : InSection environment service caller
      (service.settleVerdict deployment (.ofRaised raised)) post state) :
    InSection environment service caller
      (service.handleAttempt deployment (.error (locals, raised))) post state := by
  match raised, settle with
  | .product error, settle => exact settle
  | .other kind, settle => exact settle
  | .serving failure, settle =>
      have skipped : ReactorService.compensate deployment locals failure = Pure.pure failure := by
        unfold ReactorService.compensate
        split
        · rename_i started unhandled _
          rcases released with none | handled
          · rw [none] at started
            cases started
          · rw [handled] at unhandled
            cases unhandled
        · rfl
      change InSection environment service caller (do
        let failure ← ReactorService.compensate deployment locals failure
        service.failLaunch deployment failure) post state
      rw [skipped]
      exact bind (pure settle)

/-- The start and its version check.  `handled` and `started` say how the `try`
statement goes on from here. -/
theorem startExecution {engine : Engine} {model : ArtifactRef}
    {version : Option ModelVersionDocument}
    (unstarted : ∀ event ∈ origin.journal, event.caller = caller →
      event.exchange?.any Exchange.starts = false)
    (own : ∀ exchange ∈ calls, exchange.starts = false)
    {post : Except Raised Deployment → State → Prop}
    {goal : Except (LaunchLocals × Raised) EngineHandle → State → Prop}
    (settle : ∀ made verdict recent' after,
      Attempts environment slot engine model version made verdict →
      Inside origin id slot (calls ++ made) recent' after →
      InSection environment service caller (service.settleVerdict slot.deployment verdict) post
        after)
    (handled : ∀ failed after,
      InSection environment service caller (service.handleAttempt slot.deployment (.error failed))
        post after → goal (.error failed) after)
    (started : ∀ (handle : EngineHandle) recent' after,
      environment.Admits slot ⟨engine, startCall slot.deployment model version, .ok handle⟩ →
      Identified version handle →
      Inside origin id slot
        (calls ++ [⟨engine, startCall slot.deployment model version, .ok handle⟩]) recent' after →
      goal (.ok handle) after) :
    InSection environment service caller
      (startExecution slot.deployment engine model
        { model := some model, engine := some engine, modelVersion := version }) goal state := by
  have key := inside.id_eq
  have lawful : (startCall slot.deployment model version).Lawful service caller state engine :=
    ⟨⟨slot, by rw [key]; exact inside.here, starting⟩, by rw [key]; exact inside.mayLaunch may,
      inside.unstarted unstarted own⟩
  cases version with
  | none =>
      refine during (port inside key lawful fun answer after admits inside => ?_)
      cases answer with
      | ok handle => exact started handle _ after admits (fun _ none => by cases none) inside
      | error raised =>
          exact handled _ after (uncompensated (.inl rfl)
            (settle _ _ _ after (.refused admits) inside))
  | some document =>
      cases takes : engine.takesModelVersion .start with
      | false =>
          have refused := settle [] _ recent state (.unsupported rfl (if_neg (by simp [takes])))
            (by rw [List.append_nil]; exact inside)
          refine during_bind ⟨rfl, ?_⟩
          simp only [requireModelVersionKeyword, takes, Bool.false_eq_true, if_false]
          exact handled _ state (uncompensated (.inl rfl) refused)
      | true =>
          refine during_bind ⟨rfl, ?_⟩
          simp only [requireModelVersionKeyword, takes, if_true]
          refine during_bind (port inside key lawful fun answer after admits inside => ?_)
          cases answer with
          | error raised =>
              exact handled _ after (uncompensated (.inl rfl)
                (settle _ _ _ after (.refused admits) inside))
          | ok handle =>
              by_cases same : handle.modelVersionId = some document.id
              · simp only [same, ne_eq, not_true_eq_false, if_false]
                refine pure (started handle _ after admits (fun other known => ?_) inside)
                cases known
                exact same
              · simp only [ne_eq, same, not_false_eq_true, if_true]
                refine during_bind (failComposedIdentity inside starting may
                  fun made outcome recent' cleaned cleans inside => ?_)
                rw [List.append_assoc] at inside
                have settled := settle _ _ recent' cleaned
                  (.mismatched admits rfl same cleans) inside
                refine handled _ cleaned (uncompensated (.inr rfl) ?_)
                rcases outcome with (_ | failure | error) | _ <;> exact settled

/-- The whole `try` statement. -/
theorem launchAttempt {engine : Engine} {model : ArtifactRef}
    (unstarted : ∀ event ∈ origin.journal, event.caller = caller →
      event.exchange?.any Exchange.starts = false)
    (own : ∀ exchange ∈ calls, exchange.starts = false)
    (bound : service.engineFor slot.deployment.servingBindingId = .ok engine)
    (placed : servingArtifact slot.deployment = .ok model)
    {post : Except Raised Deployment → State → Prop}
    (settle : ∀ made verdict recent' after,
      Attempts environment slot engine model (runtimeModelVersion slot.deployment) made verdict →
      Inside origin id slot (calls ++ made) recent' after →
      InSection environment service caller (service.settleVerdict slot.deployment verdict) post
        after) :
    InSection environment service caller (service.launchAttempt slot.deployment)
      (fun outcome after => InSection environment service caller
        (service.handleAttempt slot.deployment outcome) post after) state := by
  unfold ReactorService.launchAttempt
  rw [placed, bound]
  refine during_bind ⟨rfl, during_bind ⟨rfl, bind ?_⟩⟩
  refine startExecution inside starting may unstarted own settle (fun _ _ handled => handled) ?_
  intro handle recent' started admits identified inside
  refine during_bind (appendEvent inside fun probing inside => during_bind
    (verifyStartedModelIdentity inside starting
      fun made outcome recent' verified verifies inside => ?_))
  rw [List.append_assoc] at inside
  match outcome with
  | .ok _ => exact pure (settle _ _ recent' verified (.verified admits identified verifies) inside)
  | .error (.product error) =>
      exact settle _ _ recent' verified (.interrupted admits identified verifies nofun) inside
  | .error (.other kind) =>
      exact settle _ _ recent' verified (.interrupted admits identified verifies nofun) inside
  | .error (.serving failure) =>
      refine compensate inside starting may fun cleanup outcome recent'' cleaned cleans inside => ?_
      rw [List.append_assoc] at inside
      exact settle _ _ recent'' cleaned (.unverified admits identified verifies cleans) inside

theorem persistFailure {failure : ServingEngineFailure} {now : Datetime}
    {goal : Except Raised Unit → State → Prop}
    (holds : ∀ new recent' after, Settles slot (.failed failure) new
        (.error (.product (startFailedError slot.deployment failure))) →
      Inside origin id new calls recent' after → goal (.ok ()) after)
    (refuses : ∀ recent' after, Settles slot (.failed failure) slot (.error (.other .valueError)) →
      Inside origin id slot calls recent' after → goal (.error (.other .valueError)) after) :
    InSection environment service caller (persistFailure slot.deployment
      (failedDeployment slot.deployment failure now) failure) goal state := by
  have key := inside.id_eq
  have allowed : ∀ {after : State} {recent' : List Exchange},
      Inside origin id slot calls recent' after →
      MayLaunch caller slot.deployment.id after.journal := fun inside => by
    rw [key]
    exact inside.mayLaunch may
  have plain : failure.executionRef = none ∨ failure.endpointUrl = none →
      InSection environment service caller (ReactorService.storeEncoded failure.detailEncodes
        (.saveDeployment (failedDeployment slot.deployment failure now))) goal state :=
    fun unnamed => storeEncoded
      (fun encodes => save inside key rfl
        (lawful_of_mayLaunch (allowed inside) (.failed starting) (by simp [failedDeployment])
          (Nat.lt_succ_self _))
        fun saved _ inside _ => holds _ _ saved (.failed unnamed encodes) inside)
      fun refused => refuses _ _
        (.unfailed (by simp [ServingEngineFailure.storable, refused])) inside
  unfold ReactorService.persistFailure
  cases execution : failure.executionRef with
  | none => exact plain (.inl execution)
  | some executionRef =>
      cases address : failure.endpointUrl with
      | none => exact plain (.inr address)
      | some endpointUrl =>
          refine utcNow_bind fun built => bind (nextEndpoint inside ?_ ?_)
          · intro endpoint placing inside placed unhealthy url _
            refine storeEncoded (fun encodes => savePair inside key rfl placed
              (lawful_of_mayLaunch (allowed inside)
                (.failedWithEvidence starting placed.follows unhealthy)
                (by simp [failedDeployment]) (Nat.lt_succ_self _)) fun saved inside _ =>
              holds _ _ saved
                (.failedWithEvidence execution address placed.follows unhealthy url encodes) inside)
              fun refused => refuses _ _ (.unfailed ?_) inside
            simp only [Bool.and_eq_false_iff] at refused
            rcases refused with refused | refused <;>
              simp [ServingEngineFailure.storable, ServingEngineFailure.execution, execution,
                address, refused]
          · intro empty
            cases stored : slot.endpoint with
            | none =>
                rw [stored] at empty
                cases empty
            | some previous =>
                rw [stored] at empty
                exact absurd empty previous.named

/-- The handler's end: FAILED is persisted, with the evidence the failure names. -/
theorem failLaunch {failure : ServingEngineFailure}
    {post : Except Raised Deployment → State → Prop}
    (holds : ∀ new result recent' after, Settles slot (.failed failure) new result →
      Inside origin id new calls recent' after → post result after) :
    InSection environment service caller (service.failLaunch slot.deployment failure) post
      state := by
  refine utcNow_bind fun now => bind (completeAfterPersist origin id
    (persistFailure inside starting may (fun new recent' saved settles inside =>
      ⟨new, calls, recent', inside, fun reported inside => ?_⟩)
      fun recent' refused settles inside => holds slot _ recent' refused settles inside))
  exact appendEvent_bind inside fun _ inside => recordDeploymentDiagnostic_bind inside
    fun after inside => throw (holds new _ recent' after settles inside)

/-- The end of a verified start: READY is persisted with its endpoint. -/
theorem finishLaunch {handle : EngineHandle}
    {post : Except Raised Deployment → State → Prop}
    (holds : ∀ new result recent' after, Settles slot (.verified handle) new result →
      Inside origin id new calls recent' after → post result after) :
    InSection environment service caller (service.finishLaunch slot.deployment handle) post
      state := by
  have key := inside.id_eq
  refine utcNow_bind fun readyAt => bind (nextEndpoint inside ?_ ?_)
  · intro endpoint built inside placed ready url named
    have allowed : MayLaunch caller slot.deployment.id built.journal := by
      rw [key]
      exact inside.mayLaunch may
    refine bind (completeAfterPersist origin id (storeEncoded
      (fun encodes => savePair inside key rfl placed
        (lawful_of_mayLaunch allowed (.ready starting placed.follows ready)
          (by simp [readyDeployment]) (Nat.lt_succ_self _))
        fun saved inside _ => ⟨_, _, _, inside, fun reported inside => ?_⟩)
      fun refused => ?_))
    · exact appendEvent_bind inside fun _ inside => recordDeploymentDiagnostic_bind inside
        fun _ inside => pure (holds _ _ _ _ (.ready placed.follows ready url named encodes) inside)
    · exact holds _ _ _ _ (.unready (by simp [EngineHandle.storable, refused])) inside
  · intro empty built inside
    exact holds _ _ _ _ (.unready (by simp [EngineHandle.storable, empty])) inside

theorem settleVerdict {verdict : Verdict}
    {post : Except Raised Deployment → State → Prop}
    (holds : ∀ new result recent' after, Settles slot verdict new result →
      Inside origin id new calls recent' after → post result after) :
    InSection environment service caller (service.settleVerdict slot.deployment verdict) post
      state := by
  cases verdict with
  | aborted raised => exact throw (holds _ _ _ _ .aborted inside)
  | failed failure => exact failLaunch inside starting may holds
  | verified handle => exact finishLaunch inside starting may holds

/-- `_launch` refines `Launches`. -/
theorem launch
    (unstarted : ∀ event ∈ origin.journal, event.caller = caller →
      event.exchange?.any Exchange.starts = false)
    (own : ∀ exchange ∈ calls, exchange.starts = false)
    {post : Except Raised Deployment → State → Prop}
    (holds : ∀ made new result recent' after,
      Launches environment service slot made new result →
      Inside origin id new (calls ++ made) recent' after → post result after) :
    InSection environment service caller (service.launch slot.deployment) post state := by
  refine bind (prepareLaunch inside starting may
    fun made prepared outcome recent' prepareEnd prepares inside => ?_)
  match outcome with
  | .error raised => exact holds _ _ _ _ _ (.unprepared prepares) inside
  | .ok _ =>
      obtain ⟨still, binding, artifact, version⟩ := prepares.kept
      obtain ⟨engine, bound⟩ := prepares.bound
      obtain ⟨model, placed⟩ := servingArtifact_validated slot.deployment
      have starting' : prepared.deployment.observedState = .starting := still.trans starting
      refine lift_bind (launchAttempt inside starting' may unstarted ?_
        (by rw [binding]; exact bound) (by rw [artifact]; exact placed)
        fun attempt verdict recent'' attempted attempts inside =>
          settleVerdict inside starting' may fun new result recent''' settled settles inside => ?_)
      · intro exchange member
        rcases List.mem_append.mp member with earlier | preparing
        · exact own exchange earlier
        · exact prepares.unstarted exchange preparing
      · rw [List.append_assoc] at inside
        rw [version] at attempts
        exact holds _ _ _ _ _ (.launched prepares bound placed attempts settles) inside

end Parts

end InSection

end CyreneReactor
