import CyreneReactor.Lifecycle.Serial
import CyreneReactor.Lifecycle.Walks

namespace CyreneReactor

open Interaction ReactorService

/-! The walks of the commands, from the parts of `_launch` up. -/

namespace Walks

variable {environment : Environment} {service : ReactorService} {origin : State}
variable {caller : Caller Command} {id : Uuid} {place : Place} {deployment : Deployment}
variable {β : Type}

theorem prepare {engine : Engine} :
    Walks environment service origin caller id .loading (port engine (.prepare id))
      fun outcome last =>
        match outcome with
        | .ok prepared =>
            last = if (show Option EngineHandle from prepared).isSome then .offered else .bare
        | .error _ => last = .refused := by
  have asked : Walks environment service origin caller id .loading
      (ReactorService.call (.port engine (.prepare id))) fun outcome last =>
        ∃ answer : Except Raised (Option EngineHandle), outcome = .ok answer ∧
          last = match answer with
            | .ok prepared => if prepared.isSome then .offered else .bare
            | .error _ => .refused := by
    refine call fun state answer stands admitted answers => ?_
    have others : ∀ (answer : Except Raised (Option EngineHandle)) other, other ≠ id →
        (Op.port engine (.prepare id)).mark answer other = none := by
      intro answer other different
      cases answer <;> exact if_neg (Ne.symm different)
    cases answer with
    | error raised =>
        exact ⟨_, ⟨_, rfl, rfl⟩, stands.step admitted answers (if_pos rfl) (others _) rfl nofun⟩
    | ok prepared =>
        refine ⟨_, ⟨_, rfl, rfl⟩, stands.step admitted answers (if_pos rfl) (others _) rfl ?_⟩
        cases prepared <;> exact nofun
  apply bind asked
  · rintro value middle ⟨answer, same, rfl⟩
    cases same
    cases value with
    | ok prepared => exact pure rfl
    | error raised => exact throw rfl
  · rintro raised middle ⟨_, same, _⟩
    cases same

theorem prepareLaunch (key : deployment.id = id) (starting : deployment.observedState = .starting) :
    Walks environment service origin caller id .dispatching (service.prepareLaunch deployment)
      fun outcome last =>
        match outcome with
        | .ok prepared => prepared.id = id ∧ (last = .bare ∨ last = .pending)
        | .error _ => last.Launched := by
  subst key
  refine appendEvent_bind rfl rfl (silent_bind trivial (fun _ => trivial) fun engine => ?_)
  apply bind prepare
  · intro prepared middle reached
    cases prepared with
    | none =>
        rw [show middle = .bare from reached]
        exact pure ⟨rfl, .inl rfl⟩
    | some handle =>
        rw [show middle = .offered from reached]
        refine utcNow_bind fun now => ?_
        refine silent_bind (silent_nextEndpoint _ _ _ _ _) (fun _ => trivial) fun pending => ?_
        have saved : Walks environment service origin caller deployment.id .offered
            (ReactorService.storeEncoded handle.encodes
              (.savePair { deployment with endpointId := some pending.id } pending
                (some handle.executionRef)))
            fun outcome last =>
              match outcome with
              | .ok _ => last = .pending
              | .error _ => last.Launched := by
          have allowed : Place.next service.tracked .offered (.paired deployment.observedState) =
              some .pending := by
            rw [starting]
            rfl
          exact storeEncoded (fun _ => trivial) (stored allowed rfl fun _ _ _ _ => ⟨rfl, rfl⟩)
        apply bind saved
        · rintro value middle rfl
          exact pure ⟨rfl, .inr rfl⟩
        · exact fun _ _ reached => reached
  · intro raised middle reached
    rw [show middle = .refused from reached]
    trivial

theorem startCalled {engine : Engine} {model : ArtifactRef} {node : Option NodeRef}
    {version : Option ModelVersionDocument} (prepared : place = .bare ∨ place = .pending) :
    Walks environment service origin caller id place (port engine (.start id model node version))
      fun _ last => last = .attempted := by
  have asked : Walks environment service origin caller id place
      (ReactorService.call (.port engine (.start id model node version)))
      fun _ last => last = .attempted := by
    refine call fun state answer stands admitted answers => ?_
    refine ⟨_, rfl, stands.step admitted answers (if_pos rfl)
      (fun other different => if_neg (Ne.symm different)) ?_ nofun⟩
    rcases prepared with rfl | rfl <;> rfl
  apply bind asked
  · rintro value middle rfl
    exact silent trivial fun _ => rfl
  · exact fun _ _ reached => reached

theorem startExecution {engine : Engine} {model : ArtifactRef} {locals : LaunchLocals}
    (key : deployment.id = id) (prepared : place = .bare ∨ place = .pending) :
    Walks environment service origin caller id place
      (startExecution deployment engine model locals) fun outcome last =>
        match outcome with
        | .ok _ => last = .attempted
        | .error _ => last.Unsettled := by
  subst key
  have called : ∀ {locals : LaunchLocals} {version : Option ModelVersionDocument},
      Walks environment service origin caller deployment.id place
        (ReactorService.during locals (port engine (.start deployment.id model deployment.nodeRef
          version))) fun _ last => last = .attempted :=
    during (startCalled prepared)
  have unsettled : place.Unsettled := by
    rcases prepared with rfl | rfl <;> trivial
  unfold ReactorService.startExecution
  split
  · refine called.mono fun outcome last reached => ?_
    subst reached
    cases outcome <;> trivial
  · rename_i version
    refine silent_bind (silent_during (silent_ofExcept _)) (fun _ => unsettled) fun _ => ?_
    apply bind called
    · rintro handle middle rfl
      split
      · exact silent_bind (silent_during (silent_failComposedIdentity _ _ _ _)) (fun _ => trivial)
          fun _ => pure rfl
      · exact pure rfl
    · rintro _ _ rfl
      trivial

theorem launchAttempt (key : deployment.id = id) (prepared : place = .bare ∨ place = .pending) :
    Walks environment service origin caller id place (service.launchAttempt deployment)
      fun outcome last =>
        match outcome with
        | .ok _ => last = .probing
        | .error _ => last.Unsettled := by
  have unsettled : place.Unsettled := by
    rcases prepared with rfl | rfl <;> trivial
  refine silent_bind trivial (fun _ => unsettled) fun model => ?_
  refine silent_bind trivial (fun _ => unsettled) fun engine => ?_
  apply bind (startExecution key prepared)
  · rintro handle middle rfl
    subst key
    have announced : Walks environment service origin caller deployment.id .attempted
        (ReactorService.appendEvent deployment.id .probing "Waiting for inference readiness probe"
          none) fun outcome last => outcome = .ok () ∧ last = .probing :=
      appendEvent rfl rfl
    apply during_bind announced
    · rintro _ middle ⟨_, rfl⟩
      exact silent_bind (silent_during (silent_verifyStartedModelIdentity _ _ _)) (fun _ => trivial)
        fun _ => pure rfl
    · rintro raised middle ⟨same, _⟩
      cases same
  · exact fun _ _ reached => reached

theorem persistFailure {failed : Deployment} {failure : ServingEngineFailure}
    (key : failed.id = id) (fails : failed.observedState = .failed) (unsettled : place.Unsettled) :
    Walks environment service origin caller id place
      (ReactorService.persistFailure deployment failed failure) fun outcome last =>
        match outcome with
        | .ok _ => last = if service.tracked then .failing else .settled
        | .error _ => last.Unsettled := by
  subst key
  have allowed : ∀ {mark : Mark}, mark = .saved failed.observedState ∨
      mark = .paired failed.observedState → place.next service.tracked mark =
        some (if service.tracked then .failing else .settled) := by
    rw [fails]
    exact unsettled.fails service.tracked
  have written : Place.untouched (if service.tracked then .failing else .settled) = false := by
    cases service.tracked <;> rfl
  unfold ReactorService.persistFailure
  rcases failure.executionRef with _ | executionRef
  · exact storeEncoded (fun _ => unsettled)
      (stored (allowed (.inl rfl)) written fun _ _ _ _ => ⟨rfl, rfl⟩)
  · rcases failure.endpointUrl with _ | endpointUrl
    · exact storeEncoded (fun _ => unsettled)
        (stored (allowed (.inl rfl)) written fun _ _ _ _ => ⟨rfl, rfl⟩)
    · refine utcNow_bind fun now => ?_
      refine silent_bind (silent_nextEndpoint _ _ _ _ _) (fun _ => unsettled) fun endpoint => ?_
      exact storeEncoded (fun _ => unsettled)
        (stored (allowed (.inr rfl)) written fun _ _ _ _ => ⟨rfl, rfl⟩)

theorem failLaunch {failure : ServingEngineFailure} (key : deployment.id = id)
    (unsettled : place.Unsettled) :
    Walks environment service origin caller id place (service.failLaunch deployment failure)
      fun _ last => last.Launched := by
  subst key
  refine utcNow_bind fun now => ?_
  have persisted : Walks environment service origin caller deployment.id place
      (service.completeAfterPersist (taskId deployment.id)
        (ReactorService.persistFailure deployment (failedDeployment deployment failure now) failure))
      fun outcome last =>
        match outcome with
        | .ok _ => last = .settled
        | .error _ => last.Launched := by
    have saved : Walks environment service origin caller deployment.id place
        (ReactorService.persistFailure deployment (failedDeployment deployment failure now) failure)
        fun outcome last =>
          match outcome with
          | .ok _ => last = if service.tracked then .failing else .settled
          | .error _ => last.Launched := by
      have key : (failedDeployment deployment failure now).id = deployment.id := rfl
      refine (persistFailure key rfl unsettled).mono fun outcome last reached => ?_
      cases outcome with
      | ok _ => exact reached
      | error raised => exact Place.Unsettled.launched reached
    refine completeAfterPersist saved ?_ ?_ ?_ <;> rfl
  apply bind persisted
  · rintro _ middle rfl
    exact appendEvent_bind rfl rfl (recordDeploymentDiagnostic_bind rfl (throw trivial))
  · exact fun _ _ reached => reached

theorem finishLaunch {handle : EngineHandle} (key : deployment.id = id) :
    Walks environment service origin caller id .probing (service.finishLaunch deployment handle)
      fun _ last => last.Launched := by
  subst key
  refine utcNow_bind fun now => ?_
  refine silent_bind (silent_nextEndpoint _ _ _ _ _) (fun _ => trivial) fun endpoint => ?_
  have persisted : Walks environment service origin caller deployment.id .probing
      (service.completeAfterPersist (taskId deployment.id)
        (ReactorService.storeEncoded handle.encodes
          (.savePair (readyDeployment deployment endpoint.id now) endpoint
            (some handle.executionRef))))
      fun outcome last =>
        match outcome with
        | .ok _ => last = .verified
        | .error _ => last.Launched := by
    have saved : Walks environment service origin caller deployment.id .probing
        (ReactorService.storeEncoded handle.encodes
          (.savePair (readyDeployment deployment endpoint.id now) endpoint
            (some handle.executionRef)))
        fun (outcome : Except Raised Unit) last =>
          match outcome with
          | .ok _ => last = if service.tracked then .readying else .verified
          | .error _ => last.Launched := by
      have written : Place.untouched (if service.tracked then .readying else .verified) = false := by
        cases service.tracked <;> rfl
      have allowed : Place.next service.tracked .probing (.paired .ready) =
          some (if service.tracked then .readying else .verified) := rfl
      exact storeEncoded (fun _ => trivial) (stored allowed written fun _ _ _ _ => ⟨rfl, rfl⟩)
    refine completeAfterPersist saved ?_ ?_ ?_ <;> rfl
  apply bind persisted
  · rintro _ middle rfl
    exact appendEvent_bind rfl rfl (recordDeploymentDiagnostic_bind rfl (pure trivial))
  · exact fun _ _ reached => reached

/-- `_launch`, wherever it ends. -/
theorem launch (key : deployment.id = id) (starting : deployment.observedState = .starting) :
    Walks environment service origin caller id .dispatching (service.launch deployment)
      fun _ last => last.Launched := by
  apply bind (prepareLaunch key starting)
  · rintro prepared middle ⟨key, reached⟩
    have attempted : Walks environment service origin caller id middle
        (ExceptT.lift (service.launchAttempt prepared).attempt : Service _) fun outcome last =>
          match outcome with
          | .ok (.ok _) => last = .probing
          | .ok (.error _) => last.Unsettled
          | .error _ => False := by
      intro state stands
      change @Held (service.system environment) _ caller _ 0
        ((service.launchAttempt prepared).run.bind fun outcome => Program.pure (Except.ok outcome)) _
        state
      apply Held.bind
      refine (launchAttempt key reached state stands).mono fun outcome after ended => ⟨rfl, ?_⟩
      obtain ⟨last, ended, there⟩ := ended
      cases outcome <;> exact ⟨last, ended, there⟩
    apply bind attempted
    · intro outcome last reached
      cases outcome with
      | ok handle =>
          rw [show last = .probing from reached]
          exact finishLaunch key
      | error failed =>
          have unsettled : last.Unsettled := reached
          obtain ⟨locals, raised⟩ := failed
          rcases raised with error | failure | kind
          · exact throw unsettled.launched
          · exact silent_bind (silent_compensate _ _ _) (fun _ => unsettled.launched)
              fun failure => failLaunch key unsettled
          · exact throw unsettled.launched
    · exact fun _ _ reached => reached.elim
  · exact fun _ _ reached => reached

/-- What a section reads before it wrote anything is what it began with. -/
theorem requireDeployment_bind {next : Deployment → Service β} {ends : Except Raised β → Place → Prop}
    (untouched : place.untouched = true) (missing : ∀ raised, ends (.error raised) place)
    (returned : ∀ deployment, origin.database.getDeployment id = some deployment →
      Walks environment service origin caller id place (next deployment) ends) :
    Walks environment service origin caller id place (requireDeployment id >>= next) ends := by
  have read : Walks environment service origin caller id place (store (.getDeployment id))
      fun outcome last => outcome = .ok (origin.database.getDeployment id) ∧ last = place := by
    refine call fun state answer stands admitted answers => ?_
    have quiet : (Op.store (.getDeployment id)).Silent := ⟨fun _ _ => rfl, fun _ => rfl⟩
    refine ⟨place, ⟨?_, rfl⟩,
      stands.quiet admitted answers (quiet.1 answer) fun _ => quiet.2 _⟩
    rw [← stands.unwritten untouched]
    exact congrArg Except.ok answers
  have required : Walks environment service origin caller id place (requireDeployment id)
      fun outcome last => last = place ∧ ∀ deployment, outcome = .ok deployment →
        origin.database.getDeployment id = some deployment := by
    apply bind read
    · rintro found middle ⟨same, rfl⟩
      cases found with
      | none =>
          apply throw
          refine ⟨rfl, fun other returned => ?_⟩
          cases returned
      | some deployment =>
          apply pure
          refine ⟨rfl, fun other returned => ?_⟩
          cases returned
          exact (Except.ok.inj same).symm
    · rintro raised middle ⟨same, _⟩
      cases same
  apply bind required
  · rintro deployment middle ⟨rfl, found⟩
    exact returned deployment (found deployment rfl)
  · rintro raised middle ⟨rfl, _⟩
    exact missing raised

theorem persistStopping {now : Datetime} (key : deployment.id = id)
    (running : deployment.observedState ≠ .stopped) :
    Walks environment service origin caller id (.outside (some deployment.observedState))
      (service.persistStopping deployment (stoppingDeployment deployment now))
      fun outcome last => outcome = .ok () ∧ last = .stopping := by
  subst key
  have saved : ∀ {place : Place}, place.next service.tracked (.saved .stopping) = some .stopping →
      Walks environment service origin caller deployment.id place
        (store (.saveDeployment (stoppingDeployment deployment now)))
        fun outcome last => outcome = .ok () ∧ last = .stopping :=
    fun allowed => stored allowed rfl fun _ _ _ _ => ⟨rfl, rfl, rfl⟩
  have untracked : service.tracked = false →
      Walks environment service origin caller deployment.id
        (.outside (some deployment.observedState))
        (store (.saveDeployment (stoppingDeployment deployment now)))
        fun outcome last => outcome = .ok () ∧ last = .stopping := by
    intro off
    refine saved ?_
    cases observed : deployment.observedState <;> rw [off] <;>
      first | rfl | exact absurd observed running
  unfold ReactorService.persistStopping
  cases observed : deployment.observedState with
  | stopped => exact absurd observed running
  | starting | stopping =>
      rw [observed] at untracked
      dsimp only
      exact transitionAndPersist (fun _ => ⟨.canceling, rfl, nofun, saved rfl⟩) untracked
  | ready | degraded | failed =>
      rw [observed] at untracked
      dsimp only
      exact admitAndPersist (fun _ => ⟨.canceling, rfl, nofun, saved rfl⟩) untracked

theorem persistStopped {stopped : Deployment} {endpoint : Option Endpoint} {stoppedAt : Datetime}
    (key : stopped.id = id) (ended : stopped.observedState = .stopped) :
    Walks environment service origin caller id .stopped
      (service.completeAfterPersist (taskId id)
        (ReactorService.persistStopped stopped endpoint stoppedAt))
      fun outcome last => outcome = .ok () ∧ last = .freed := by
  subst key
  have written : Place.untouched (if service.tracked then .releasing else .freed) = false := by
    cases service.tracked <;> rfl
  have allowed : ∀ {mark : Mark}, mark = .saved stopped.observedState ∨
      mark = .paired stopped.observedState → Place.next service.tracked .stopped mark =
        some (if service.tracked then .releasing else .freed) := by
    rw [ended]
    rintro mark (rfl | rfl) <;> rfl
  have saved : Walks environment service origin caller stopped.id .stopped
      (ReactorService.persistStopped stopped endpoint stoppedAt) fun outcome last =>
        match outcome with
        | .ok _ => last = if service.tracked then .releasing else .freed
        | .error raised => (.error raised : Except Raised Unit) = .ok () ∧ last = .freed := by
    cases endpoint with
    | none => exact stored (allowed (.inl rfl)) written fun _ _ _ _ => ⟨rfl, rfl⟩
    | some endpoint => exact stored (allowed (.inr rfl)) written fun _ _ _ _ => ⟨rfl, rfl⟩
  exact completeAfterPersist saved rfl rfl ⟨rfl, rfl⟩

theorem found_eq {deployment : Deployment} (here : origin.database.getDeployment id = some deployment) :
    origin.found id = .outside (some deployment.observedState) := by
  rw [State.found, here]
  rfl

/-- `_stop_deployment` -/
theorem stopLocked :
    Walks environment service origin caller id (origin.found id) (service.stopLocked id)
      fun outcome last =>
        match outcome with
        | .ok deployment =>
            deployment.id = id ∧ last.Restartable ∧ (last = origin.found id ∨ last = .released)
        | .error _ => last = origin.found id ∨ last = .stopped := by
  refine requireDeployment_bind rfl (fun _ => .inl rfl) fun deployment here => ?_
  have key : deployment.id = id := (Database.getDeployment_mem here).2
  rw [found_eq here]
  subst key
  by_cases already : deployment.observedState = .stopped
  · rw [if_pos already, already]
    exact pure ⟨rfl, .inl rfl, .inl rfl⟩
  · rw [if_neg already]
    refine utcNow_bind fun now => ?_
    apply bind (persistStopping rfl already)
    · rintro _ middle ⟨_, rfl⟩
      refine appendEvent_bind rfl rfl ?_
      refine silent_bind (silent_previousEndpoint _) (fun _ => .inr rfl) fun endpoint => ?_
      refine silent_bind (silent_store rfl) (fun _ => .inr rfl) fun reference => ?_
      refine silent_bind (silent_releaseExecution _ _ _ _) (fun _ => .inr rfl) fun _ => ?_
      refine utcNow_bind fun stoppedAt => ?_
      have persisted : Walks environment service origin caller deployment.id .stopped
          (service.completeAfterPersist (taskId deployment.id)
            (ReactorService.persistStopped
              (stoppedDeployment (stoppingDeployment deployment now) stoppedAt) endpoint stoppedAt))
          fun outcome last => outcome = .ok () ∧ last = .freed :=
        persistStopped rfl rfl
      apply bind persisted
      · rintro _ middle ⟨_, rfl⟩
        exact appendEvent_bind rfl rfl (recordDeploymentDiagnostic_bind rfl
          (pure ⟨rfl, .inr rfl, .inr rfl⟩))
      · rintro _ middle ⟨same, _⟩
        cases same
    · rintro _ middle ⟨same, _⟩
      cases same

/-- `_create_deployment` and `restart_deployment` once STARTING is saved. -/
theorem queuedLaunch {message : String} (key : deployment.id = id)
    (starting : deployment.observedState = .starting) :
    Walks environment service origin caller id .starting
      (do
        ReactorService.appendEvent deployment.id .queued message none
        service.transitionAndPersist (taskId deployment.id) .dispatching
          (service.launch deployment))
      fun _ last => last.Launched := by
  subst key
  have written : Place.untouched (if service.tracked then .queued else .dispatching) = false := by
    cases service.tracked <;> rfl
  refine appendEvent_bind (rfl : _ = some _) written ?_
  refine transitionAndPersist (fun on => ?_) fun off => ?_
  · rw [on]
    exact ⟨.dispatching, rfl, nofun, launch rfl starting⟩
  · rw [off]
    exact launch rfl starting

theorem relaunch {nodeRef : NodeRef} (key : deployment.id = id) (restartable : place.Restartable) :
    Walks environment service origin caller id place (service.relaunch deployment nodeRef)
      fun _ last => last.Launched := by
  subst key
  refine utcNow_bind fun now => ?_
  have saved : ∀ {place : Place}, place.next service.tracked (.saved .starting) = some .starting →
      Walks environment service origin caller deployment.id place
        (store (.saveDeployment (startingDeployment deployment nodeRef now)))
        fun outcome last => outcome = .ok () ∧ last = .starting :=
    fun allowed => stored allowed rfl fun _ _ _ _ => ⟨rfl, rfl, rfl⟩
  have admitted : Walks environment service origin caller deployment.id place
      (service.admitAndPersist (taskId deployment.id) .accepted
        (store (.saveDeployment (startingDeployment deployment nodeRef now))))
      fun outcome last => outcome = .ok () ∧ last = .starting := by
    refine admitAndPersist (fun on => ?_) fun off => saved ?_
    · refine ⟨.admitted (some .stopped), ?_, nofun, saved rfl⟩
      rcases restartable with rfl | rfl <;> rfl
    · rw [off]
      rcases restartable with rfl | rfl <;> rfl
  apply bind admitted
  · rintro _ middle ⟨_, rfl⟩
    have key : (startingDeployment deployment nodeRef now).id = deployment.id := rfl
    exact queuedLaunch key rfl
  · rintro _ middle ⟨same, _⟩
    cases same

theorem restartLocked {nodeRef : NodeRef} {version : Nat} :
    Walks environment service origin caller id (origin.found id)
      (service.restartLocked id nodeRef version)
      fun _ last => last = origin.found id ∨ last = .stopped ∨ last.Launched := by
  refine requireDeployment_bind rfl (fun _ => .inl rfl) fun deployment here => ?_
  have key : deployment.id = id := (Database.getDeployment_mem here).2
  split
  · exact throw (.inl rfl)
  · split
    · apply bind (locked stopLocked)
      · rintro stopped middle ⟨key, restartable, _⟩
        exact (relaunch key restartable).mono fun _ _ launched => .inr (.inr launched)
      · rintro raised middle (unmoved | kept)
        · exact .inl unmoved
        · exact .inr (.inl kept)
    · rename_i ended
      have restartable : (origin.found id).Restartable := by
        rw [found_eq here, not_not.mp ended]
        exact .inl rfl
      exact (relaunch key restartable).mono fun _ _ launched => .inr (.inr launched)

/-- The deployment serves, in one of its two states. -/
def Serving (deployment : Deployment) : Prop :=
  deployment.observedState = .ready ∨ deployment.observedState = .degraded

theorem serving_reconciled (observation : EngineObservation) (now : Datetime) :
    Serving (reconciledDeployment deployment observation now) := by
  cases ready : observation.ready <;> simp [Serving, reconciledDeployment, observedOf, ready]

theorem compareAndSave {endpoint : Endpoint} {version : Nat} (key : deployment.id = id)
    (serving : Serving deployment)
    (live : ∀ current, origin.database.getDeployment id = some current →
      current.resourceVersion = version → Serving current) :
    Walks environment service origin caller id (origin.found id)
      (ReactorService.compareAndSave deployment endpoint version)
      fun _ last => last = origin.found id ∨ last = .reconciled := by
  subst key
  refine requireDeployment_bind rfl (fun _ => .inl rfl) fun current here => ?_
  split
  · exact pure (.inl rfl)
  · rename_i unmoved
    have allowed : (origin.found deployment.id).next service.tracked
        (.paired deployment.observedState) = some .reconciled := by
      rw [found_eq here]
      rcases live current here (not_not.mp unmoved) with before | before <;>
        rcases serving with after | after <;> rw [before, after] <;> rfl
    have saved : Walks environment service origin caller deployment.id (origin.found deployment.id)
        (store (.savePair deployment endpoint none))
        fun outcome last => outcome = .ok () ∧ last = .reconciled :=
      stored allowed rfl fun _ _ _ _ => ⟨rfl, rfl, rfl⟩
    apply bind saved
    · rintro _ middle ⟨_, rfl⟩
      exact pure (.inr rfl)
    · rintro _ middle ⟨same, _⟩
      cases same

theorem observeLive {endpointId : Uuid} (here : origin.database.getDeployment id = some deployment)
    (serving : Serving deployment) :
    Walks environment service origin caller id (origin.found id)
      (service.observeLive deployment endpointId)
      fun _ last => last = origin.found id ∨ last = .reconciled := by
  have key : deployment.id = id := (Database.getDeployment_mem here).2
  refine silent_bind (silent_requireEndpoint _) (fun _ => .inl rfl) fun endpoint => ?_
  refine silent_bind (silent_store rfl) (fun _ => .inl rfl) fun reference => ?_
  cases reference with
  | none => exact pure (.inl rfl)
  | some reference =>
      refine silent_bind (silent_inspectExecution _ _ _ _) (fun _ => .inl rfl) fun observation => ?_
      unfold reconcile
      split
      · refine utcNow_bind fun now => locked (compareAndSave key (serving_reconciled _ _) ?_)
        intro current there _
        rw [here, Option.some.injEq] at there
        exact there ▸ serving
      · exact pure (.inl rfl)

theorem getDeployment :
    Walks environment service origin caller id (origin.found id) (service.getDeployment id)
      fun _ last => last = origin.found id ∨ last = .reconciled := by
  refine requireDeployment_bind rfl (fun _ => .inl rfl) fun deployment here => ?_
  split
  · exact observeLive here (.inl (by assumption))
  · exact observeLive here (.inr (by assumption))
  · exact pure (.inl rfl)

/-- An intent for a new id under an unused key is admitted. -/
theorem persistIntent {key : Option String} {digest : String} (new : deployment.id = id)
    (starting : deployment.observedState = .starting)
    (unresolved : origin.database.resolveIdempotency key digest = .ok none)
    (fresh : ∀ old ∈ origin.database.deployments.rows, old.id ≠ deployment.id)
    (untouched : place.untouched = true)
    (allowed : place.next service.tracked (.saved .starting) = some .starting) :
    Walks environment service origin caller id place
      (ReactorService.persistIntent deployment key digest)
      fun outcome last => outcome = .ok none ∧ last = .starting := by
  subst new
  have committed : Walks environment service origin caller deployment.id place
      (store (.createIntent deployment key digest))
      fun outcome last => outcome = .ok (.ok none) ∧ last = .starting := by
    refine stored allowed rfl fun state answer kept answers => ?_
    have same : answer = .ok none := by
      have unchanged := kept untouched
      rw [← unchanged] at unresolved fresh
      exact Eq.trans answers (Database.createIntent_admits _ unresolved fresh)
    subst same
    rw [← starting]
    exact ⟨rfl, rfl, rfl⟩
  apply bind committed
  · rintro answer middle ⟨same, rfl⟩
    cases same
    exact pure ⟨rfl, rfl⟩
  · rintro raised middle ⟨same, _⟩
    cases same

theorem admitDeployment {key : Option String} {digest : String} (new : deployment.id = id)
    (starting : deployment.observedState = .starting)
    (unresolved : origin.database.resolveIdempotency key digest = .ok none)
    (fresh : ∀ old ∈ origin.database.deployments.rows, old.id ≠ deployment.id) :
    Walks environment service origin caller id (.outside none)
      (service.admitDeployment deployment key digest)
      fun _ last => last = .outside none ∨ last.Launched := by
  subst new
  refine silent_bind (silent_ofExcept _) (fun _ => .inl rfl) fun _ => ?_
  have admitted : Walks environment service origin caller deployment.id (.outside none)
      (service.admitAndPersist (taskId deployment.id) .accepted
        (ReactorService.persistIntent deployment key digest))
      fun outcome last => outcome = .ok none ∧ last = .starting := by
    refine admitAndPersist (fun on => ⟨.admitted none, rfl, fun _ => rfl, ?_⟩) fun off => ?_
    · exact persistIntent rfl starting unresolved fresh rfl rfl
    · refine persistIntent rfl starting unresolved fresh rfl ?_
      rw [off]
      rfl
  apply bind admitted
  · rintro replay middle ⟨same, rfl⟩
    cases same
    exact (queuedLaunch rfl starting).mono fun _ _ launched => .inr launched
  · rintro raised middle ⟨same, _⟩
    cases same

end Walks

section Sections

variable {environment : Environment} {service : ReactorService} {origin : State}
variable {caller : Caller Command}

/-- A section of the command, begun in `origin`, ended in order. -/
def InOrder (environment : Environment) (service : ReactorService) (command : Command)
    (origin state : State) : Prop :=
  ∃ id last, (last = origin.found id ∨ last.Ends command) ∧
    Stands environment service origin id last state

/-- The program, run under the lock from `origin`, keeps the order of the command. -/
abbrev KeepsOrder (environment : Environment) (service : ReactorService) (caller : Caller Command)
    (origin : State) (program : Service Deployment) (state : State) : Prop :=
  @Held (service.system environment) (Except Raised Deployment) caller
    (fun _ after => Ordered environment service origin after) 0 program.run
    (fun _ after => InOrder environment service caller.command origin after) state

theorem Walks.keepsOrder {id : Uuid} {place : Place} {program : Service Deployment} {state : State}
    {ends : Except Raised Deployment → Place → Prop}
    (walks : Walks environment service origin caller id place program ends)
    (stands : Stands environment service origin id place state)
    (ended : ∀ outcome last, ends outcome last →
      last = origin.found id ∨ last.Ends caller.command) :
    KeepsOrder environment service caller origin program state := by
  refine (walks state stands).mono fun outcome after reached => ?_
  obtain ⟨last, ends, there⟩ := reached
  exact ⟨id, last, ended outcome last ends, there⟩

theorem KeepsOrder.call {op : Op} {next : op.Answer → Service Deployment} {state : State}
    (holds : ∀ answer, environment state.database op answer → Answers state op answer →
      Ordered environment service origin (state.after caller true op answer) ∧
        KeepsOrder environment service caller origin (next answer)
          (state.after caller true op answer)) :
    KeepsOrder environment service caller origin (ReactorService.call op >>= next) state := by
  refine Held.bind_run (Held.perform_run fun answer after does => ?_)
  obtain ⟨admitted, answers, rfl⟩ := does
  exact holds answer admitted answers

/-- A call that is not recorded leaves the section at its start. -/
theorem KeepsOrder.unrecorded {op : Op} {next : op.Answer → Service Deployment}
    (unrecorded : op.recorded = false)
    (rest : ∀ answer, Answers origin op answer →
      KeepsOrder environment service caller origin (next answer) origin) :
    KeepsOrder environment service caller origin (ReactorService.call op >>= next) origin := by
  have stands : Stands environment service origin ⟨0⟩ (origin.found ⟨0⟩) origin := Stands.initial
  refine KeepsOrder.call fun answer _ answers => ?_
  rw [State.after_unrecorded unrecorded]
  exact ⟨stands.ordered, rest answer answers⟩

/-- A new id stands for nothing that is stored. -/
theorem KeepsOrder.uuid4_bind {next : Uuid → Service Deployment} (consistent : Consistent origin)
    (rest : ∀ id state, (∀ old ∈ origin.database.deployments.rows, old.id ≠ id) →
      origin.found id = .outside none → Stands environment service origin id (.outside none) state →
      KeepsOrder environment service caller origin (next id) state) :
    KeepsOrder environment service caller origin (uuid4 >>= next) origin := by
  refine KeepsOrder.call fun (id : Uuid) admitted answers => ?_
  have unissued : id ∉ issued origin.journal := answers
  have fresh : ∀ old ∈ origin.database.deployments.rows, old.id ≠ id := by
    rintro old member rfl
    exact unissued (consistent.deploymentIssued old member)
  have absent : origin.database.getDeployment id = none := by
    refine List.find?_eq_none.mpr fun old member => ?_
    simpa using fresh old member
  have found : origin.found id = .outside none := by
    rw [State.found, absent]
    rfl
  have stands : Stands environment service origin id (origin.found id)
      (origin.after caller true .uuid4 id) :=
    Stands.initial.quiet admitted answers (fun _ => rfl) fun _ => rfl
  rw [found] at stands
  exact ⟨stands.ordered, rest id _ fresh found stands⟩

theorem KeepsOrder.createLocked {request : CreateDeploymentRequest} {key : Option String}
    (consistent : Consistent origin) (command : caller.command = .create request key) :
    KeepsOrder environment service caller origin (service.createLocked request key) origin := by
  refine KeepsOrder.unrecorded rfl fun resolved answers => ?_
  cases resolution : origin.database.resolveIdempotency key (service.requestHash request) with
  | error raised =>
      obtain rfl : resolved = .error raised := Eq.trans answers resolution
      exact ⟨rfl, ⟨0⟩, _, .inl rfl, Stands.initial⟩
  | ok replay =>
      obtain rfl : resolved = .ok replay := Eq.trans answers resolution
      cases replay with
      | some id =>
          have walks : Walks environment service origin caller id (origin.found id)
              (service.getDeployment id) _ := Walks.getDeployment
          refine walks.keepsOrder Stands.initial fun outcome last ended => ended.imp_right ?_
          rintro rfl
          rw [command]
          exact .inl rfl
      | none =>
          refine KeepsOrder.unrecorded rfl fun now _ => ?_
          refine KeepsOrder.uuid4_bind consistent fun id state fresh found stands => ?_
          have walks : Walks environment service origin caller id (.outside none)
              (service.admitDeployment (newDeployment request id now) key
                (service.requestHash request)) _ :=
            Walks.admitDeployment rfl rfl resolution fresh
          refine walks.keepsOrder stands fun outcome last ended => ?_
          rw [found, command]
          exact ended.imp_right .inr

/-- Every section keeps the order of its command. -/
theorem Section.keepsOrder {body : Service Deployment} (section' : Section service origin caller body)
    (consistent : Consistent origin) :
    KeepsOrder environment service caller origin body origin := by
  cases section' with
  | command locks =>
      cases command : caller.command with
      | create request key => exact KeepsOrder.createLocked consistent command
      | get id => exact absurd command (locks id)
      | stop id =>
          have walks : Walks environment service origin caller id (origin.found id)
              (service.stopLocked id) _ := Walks.stopLocked
          refine walks.keepsOrder Stands.initial fun outcome last ended => ?_
          rw [command]
          cases outcome with
          | ok deployment =>
              exact ended.2.2.imp_right Or.inr
          | error raised => exact Or.imp_right Or.inl ended
      | restart id nodeRef version =>
          have walks : Walks environment service origin caller id (origin.found id)
              (service.restartLocked id nodeRef version) _ := Walks.restartLocked
          refine walks.keepsOrder Stands.initial fun outcome last ended => ?_
          rw [command]
          exact ended
  | @reconcile id slot deployment endpoint observation now command here about live unchanged =>
      have walks : Walks environment service origin caller id (origin.found id)
          (ReactorService.compareAndSave (reconciledDeployment deployment observation now)
            (reconciledEndpoint endpoint observation now) deployment.resourceVersion)
          fun _ last => last = origin.found id ∨ last = .reconciled := by
        refine Walks.compareAndSave about (Walks.serving_reconciled _ _) fun current there same => ?_
        have stored : slot.deployment = current :=
          Option.some.inj ((Database.slot_eq_some here).1.symm.trans there)
        have kept := (unchanged (stored ▸ same)).1
        rw [← stored, kept]
        exact live
      refine walks.keepsOrder Stands.initial fun outcome last ended => ?_
      rw [command]
      exact ended

end Sections

end CyreneReactor
