import CyreneReactor.Lifecycle.Launch

namespace CyreneReactor

open Interaction ReactorService

/-! The locked part of every command comes to nothing but the outcomes of its
relation, by lawful steps.
-/

namespace InSection

variable {environment : Environment} {service : ReactorService} {caller : Caller Command}
variable {origin state : State} {id : Uuid} {slot : Slot} {calls recent : List Exchange}

theorem engineFor_error {bindingId : String} {raised : Raised}
    (unbound : service.engineFor bindingId = .error raised) : ∃ error, raised = .product error := by
  unfold ReactorService.engineFor at unbound
  split at unbound
  · cases unbound
  · split at unbound
    · cases unbound
    · cases unbound
      exact ⟨_, rfl⟩

/-- The calls of a stop once it has saved STOPPING; `raw` is what they raise before
the stop turns a failure into its own error. -/
theorem stopExecution {now : Datetime} {executionRef : String} {endpoint : Endpoint}
    (inside : Inside origin id (slot.stopping now) calls recent state)
    (evidence : slot.executionRef = some executionRef) (address : slot.endpoint = some endpoint)
    (unreleased : ∀ exchange ∈ recent, exchange.stopReturned id executionRef = false)
    {goal : Except Raised Unit → State → Prop}
    (holds : ∀ made raw after,
      Releases environment service (slot.stopping now) made (stopOutcome slot.deployment raw) →
      Inside origin id (slot.stopping now) (calls ++ made) (recent ++ made) after →
      goal raw after) :
    InSection environment service caller
      (service.stopExecution slot.deployment endpoint executionRef) goal state := by
  have key : slot.deployment.id = id := inside.id_eq
  have here : Inside origin id (slot.stopping now) (calls ++ []) (recent ++ []) state := by
    rw [List.append_nil, List.append_nil]
    exact inside
  have lawful : ∀ {engine : Engine} identity,
      service.engineFor slot.deployment.servingBindingId = .ok engine →
      ((runtimeModelVersion slot.deployment).isSome = true → engine.takesModelVersion .stop = true) →
      (stopCall slot.deployment executionRef endpoint.url identity).Lawful service caller state
        engine :=
    fun identity bound takes => ⟨slot.stopping now, by rw [key]; exact inside.here, .inr
      { stopping := rfl
        evidence
        address := ⟨endpoint, address, rfl⟩
        unreleased := by
          rw [inside.id_eq, inside.since]
          exact unreleased
        bound
        takes }⟩
  -- Every answer of the engine is one outcome of the release.
  have called : ∀ {engine : Engine} {identity : String},
      service.engineFor slot.deployment.servingBindingId = .ok engine →
      servingIdentity slot.deployment = .ok identity →
      ((runtimeModelVersion slot.deployment).isSome = true → engine.takesModelVersion .stop = true) →
      InSection environment service caller (do
        let _ ← ReactorService.port engine
          (stopCall slot.deployment executionRef endpoint.url identity)
        Pure.pure ()) goal state := by
    intro engine identity bound names takes
    refine bind (port inside key (lawful identity bound takes) fun answer after admits inside => ?_)
    have settled := holds _ (answer.map fun _ => ()) after ?_ inside
    · match answer, settled with
      | .ok _, settled => exact pure settled
      | .error raised, settled => exact settled
    · have outcome : Releases environment service (slot.stopping now) _ _ :=
        .called evidence address bound names takes admits
      match answer, outcome with
      | .ok _, outcome => exact outcome
      | .error (.serving failure), outcome => exact outcome
      | .error (.product error), outcome => exact outcome
      | .error (.other kind), outcome => exact outcome
  obtain ⟨model, placed⟩ := servingArtifact_validated slot.deployment
  unfold ReactorService.stopExecution
  rw [placed]
  cases bound : service.engineFor slot.deployment.servingBindingId with
  | error raised =>
      obtain ⟨error, rfl⟩ := engineFor_error bound
      exact bind ⟨rfl, bind ⟨rfl, holds [] (.error _) state (.unbound evidence address bound) here⟩⟩
  | ok engine =>
      refine bind ⟨rfl, bind ⟨rfl, ?_⟩⟩
      cases runtime : runtimeModelVersion slot.deployment with
      | none =>
          have full := called bound (servingIdentity_full runtime placed) (by rw [runtime]; nofun)
          rw [stopCall, runtime] at full
          exact full
      | some version =>
          cases takes : engine.takesModelVersion .stop with
          | false =>
              have refused : requireModelVersionKeyword engine .stop = .error (.serving _) :=
                if_neg (by simp [takes])
              simp only
              rw [refused]
              have composed : (runtimeModelVersion slot.deployment).isSome = true := by
                rw [runtime]
                rfl
              exact bind ⟨rfl, holds [] (.error _) state
                (.unsupported evidence address bound composed refused) here⟩
          | true =>
              have accepted : requireModelVersionKeyword engine .stop = .ok () := if_pos takes
              have names := servingIdentity_composed runtime
              have composed := called bound names fun _ => takes
              rw [stopCall, runtime] at composed
              simp only
              rw [accepted, names]
              exact bind ⟨rfl, bind ⟨rfl, composed⟩⟩

/-- The release a stop makes once it has saved STOPPING. -/
theorem releaseExecution {now : Datetime}
    (inside : Inside origin id (slot.stopping now) calls recent state)
    (unreleased : ∀ ref, slot.executionRef = some ref →
      ∀ exchange ∈ recent, exchange.stopReturned id ref = false)
    {goal : Except Raised Unit → State → Prop}
    (holds : ∀ made outcome after, Releases environment service (slot.stopping now) made outcome →
      Inside origin id (slot.stopping now) (calls ++ made) (recent ++ made) after →
      goal outcome after) :
    InSection environment service caller
      (service.releaseExecution slot.deployment slot.endpoint slot.executionRef) goal state := by
  have nothing : slot.executionRef = none ∨ slot.endpoint = none → goal (.ok ()) state :=
    fun nothing => holds [] _ state (.nothing nothing)
      (by rw [List.append_nil, List.append_nil]; exact inside)
  unfold ReactorService.releaseExecution
  cases evidence : slot.executionRef with
  | none => exact pure (nothing (.inl evidence))
  | some executionRef =>
      cases address : slot.endpoint with
      | none => exact pure (nothing (.inr address))
      | some endpoint =>
          refine bind (catchFailure (stopExecution inside evidence address (unreleased _ evidence)
            fun made raw after releases inside => ?_))
          have settled := holds made _ after releases inside
          match raw, settled with
          | .ok _, settled => exact pure settled
          | .error (.serving failure), settled => exact throw settled
          | .error (.product error), settled => exact settled
          | .error (.other kind), settled => exact settled

theorem persistStopping (inside : Inside origin id slot calls recent state)
    (running : slot.deployment.observedState ≠ .stopped) {now : Datetime}
    (may : MayStop caller id origin.journal slot.deployment.resourceVersion)
    {goal : Except Raised Unit → State → Prop}
    (holds : ∀ after, environment.AdmitsSave slot (stoppingDeployment slot.deployment now) →
      Inside origin id (slot.stopping now) calls [] after → Wrote caller id after.journal →
      goal (.ok ()) after) :
    InSection environment service caller
      (service.persistStopping slot.deployment (stoppingDeployment slot.deployment now)) goal
      state := by
  have key := inside.id_eq
  have persist : ∀ {recent' : List Exchange} {after : State},
      Inside origin id slot calls recent' after →
      InSection environment service caller
        (store (.saveDeployment (stoppingDeployment slot.deployment now))) goal after := by
    intro recent' after inside
    refine save inside key rfl
      ⟨.stopping running, MayStop.mayWrite ?_ (Nat.lt_succ_self _), ?_,
        fun same => absurd same (Nat.succ_ne_self _)⟩ holds
    · rw [key]
      exact inside.mayStop may
    · intro stopped
      cases stopped
  unfold ReactorService.persistStopping
  split
  · exact transitionAndPersist inside fun _ inside => persist inside
  · exact transitionAndPersist inside fun _ inside => persist inside
  · exact admitAndPersist inside fun _ inside => persist inside

theorem persistStopped {now stoppedAt : Datetime}
    (inside : Inside origin id (slot.stopping now) calls recent state)
    (may : MayStop caller id origin.journal (slot.stopping now).deployment.resourceVersion)
    (released : ∀ ref, slot.executionRef = some ref →
      ∃ exchange ∈ recent, exchange.stopReturned id ref = true)
    {goal : Except Raised Unit → State → Prop}
    (holds : ∀ after, Inside origin id ((slot.stopping now).stopped stoppedAt) calls [] after →
      Wrote caller id after.journal → goal (.ok ()) after) :
    InSection environment service caller
      (persistStopped (stoppedDeployment (stoppingDeployment slot.deployment now) stoppedAt)
        slot.endpoint stoppedAt) goal state := by
  have key : slot.deployment.id = id := inside.id_eq
  have write : ∀ new, Transition (slot.stopping now) new →
      (slot.stopping now).deployment.resourceVersion < new.deployment.resourceVersion →
      LawfulWrite caller state.journal (slot.stopping now) new := fun new transition bumped =>
    { transition
      allowed := MayStop.mayWrite (by
        rw [inside.id_eq]
        exact inside.mayStop may) bumped
      released := fun _ ref evidence => by
        rw [inside.id_eq, inside.since]
        exact released ref evidence
      announced := fun same => absurd same bumped.ne' }
  have stopped : Transition (slot.stopping now) ((slot.stopping now).stopped stoppedAt) :=
    .stopped rfl
  unfold ReactorService.persistStopped
  cases address : slot.endpoint with
  | none =>
      have same : (slot.stopping now).stopped stoppedAt =
          { slot.stopping now with
            deployment := stoppedDeployment (stoppingDeployment slot.deployment now) stoppedAt } := by
        simp only [Slot.stopped, Slot.stopping, address, Option.map_none]
      rw [same] at holds stopped
      exact save inside key rfl (write _ stopped (Nat.lt_succ_self _)) fun after _ => holds after
  | some endpoint =>
      have same : (slot.stopping now).stopped stoppedAt =
          ⟨stoppedDeployment (stoppingDeployment slot.deployment now) stoppedAt,
            some (retiredEndpoint endpoint stoppedAt), slot.executionRef⟩ := by
        simp only [Slot.stopped, Slot.stopping, address, Option.map_some]
      rw [same] at holds stopped
      have named : slot.deployment.endpointId = some endpoint.id := inside.names address
      have placed : Placed state (slot.stopping now) (retiredEndpoint endpoint stoppedAt) :=
        inside.placed address rfl rfl rfl rfl
      exact savePair inside key named placed (write _ stopped (Nat.lt_succ_self _)) holds

/-- `_stop_deployment` refines `Stops`. -/
theorem stopLocked (inside : Inside origin id slot calls recent state)
    (may : MayStop caller id origin.journal slot.deployment.resourceVersion)
    {post : Except Raised Deployment → State → Prop}
    (holds : ∀ made new result recent' after,
      Stops environment service slot made new result →
      MayStop caller id after.journal new.deployment.resourceVersion →
      Inside origin id new (calls ++ made) recent' after → post result after) :
    InSection environment service caller (service.stopLocked id) post state := by
  refine requireDeployment_bind inside ?_
  by_cases running : slot.deployment.observedState = .stopped
  · rw [if_pos running]
    exact pure (holds [] slot _ recent state (.already running) (inside.mayStop may)
      (by rw [List.append_nil]; exact inside))
  · rw [if_neg running]
    refine utcNow_bind fun now => bind (persistStopping inside running may
      fun saved begins before wrote => appendEvent_bind before.restart
        fun noted inside => previousEndpoint_bind inside rfl ?_)
    have key : slot.deployment.id = id := inside.id_eq
    have mayStill : MayStop caller id saved.journal (slot.stopping now).deployment.resourceVersion :=
      may.of_wrote wrote
    rw [key]
    refine getExecutionRef_bind inside (bind (releaseExecution inside
      (fun _ _ _ member => absurd member List.not_mem_nil)
      fun made outcome released releases inside => ?_))
    match outcome with
    | .error raised =>
        exact holds made _ _ _ released (.kept running begins releases)
          ((inside.mayStop mayStill)) (before.trans inside)
    | .ok _ =>
        refine utcNow_bind fun stoppedAt => bind (completeAfterPersist saved id
          (persistStopped inside mayStill ?_ fun persisted inside _ =>
            ⟨_, _, _, inside, fun reported inside => ?_⟩))
        · intro ref evidence
          rw [List.nil_append]
          have addressed := inside.consistent.linked.endpoint_of_evidence inside.here evidence
          rw [← key]
          exact releases.returned evidence addressed
        · refine appendEvent_bind inside fun _ inside => recordDeploymentDiagnostic_bind inside
            fun finished inside => pure ?_
          exact holds made _ _ _ finished (.released running begins releases)
            (may.of_wrote (inside.wrote wrote)) (before.trans inside)

theorem relaunch (inside : Inside origin id slot calls recent state)
    (stopped : slot.deployment.observedState = .stopped)
    (own : ∀ exchange ∈ calls, exchange.starts = false)
    {nodeRef : NodeRef} {version : Nat} (command : caller.command = .restart id nodeRef version)
    (may : MayStop caller id state.journal slot.deployment.resourceVersion)
    (unstarted : ∀ event ∈ origin.journal, event.caller = caller →
      event.exchange?.any Exchange.starts = false)
    {post : Except Raised Deployment → State → Prop}
    (holds : ∀ now made new result recent' after,
      Launches environment service (slot.starting nodeRef now) made new result →
      Inside origin id new (calls ++ made) recent' after → post result after) :
    InSection environment service caller (service.relaunch slot.deployment nodeRef) post state := by
  have key := inside.id_eq
  refine utcNow_bind fun now => bind ?_
  refine admitAndPersist inside.restart fun admitted within => ?_
  refine save within key rfl
    ⟨.restarted stopped, MayStop.mayWrite ?_ (Nat.lt_succ_self _), ?_,
      fun same => absurd same (Nat.succ_ne_self _)⟩
    fun saved _ before wrote => ?_
  · rw [key]
    exact within.mayStop may
  · intro halted
    cases halted
  -- The restart owns the deployment from its first write on.
  have mayLaunch : MayLaunch caller id saved.journal := by
    unfold MayLaunch
    rw [command]
    exact ⟨rfl, wrote⟩
  have still : ∀ event ∈ saved.journal, event.caller = caller →
      event.exchange?.any Exchange.starts = false :=
    (inside.trans before).unstarted unstarted (by rw [List.append_nil]; exact own)
  refine appendEvent_bind before.restart fun queued inside' =>
    transitionAndPersist inside' fun dispatched inside' => ?_
  refine launch inside' rfl mayLaunch still (fun _ member => absurd member List.not_mem_nil)
    fun made new result recent' after launches inside'' => ?_
  have whole := (inside.trans before).trans inside''
  rw [List.append_nil, List.nil_append] at whole
  exact holds now made new result recent' after launches whole

/-- `restart_deployment` refines `Restarts`. -/
theorem restartLocked (inside : Inside origin id slot calls recent state)
    {nodeRef : NodeRef} {version : Nat} (command : caller.command = .restart id nodeRef version)
    (own : ∀ exchange ∈ calls, exchange.starts = false)
    (unstarted : ∀ event ∈ origin.journal, event.caller = caller →
      event.exchange?.any Exchange.starts = false)
    {post : Except Raised Deployment → State → Prop}
    (holds : ∀ made new result recent' after,
      Restarts environment service nodeRef version slot made new result →
      Inside origin id new (calls ++ made) recent' after → post result after) :
    InSection environment service caller (service.restartLocked id nodeRef version) post state := by
  refine requireDeployment_bind inside ?_
  by_cases current : slot.deployment.resourceVersion = version
  · have may : ∀ journal, MayStop caller id journal slot.deployment.resourceVersion := fun journal => by
      unfold MayStop
      rw [command]
      exact ⟨rfl, .inr current⟩
    simp only [ne_eq, current, not_true_eq_false, if_false]
    by_cases stopped : slot.deployment.observedState = .stopped
    · simp only [stopped, not_true_eq_false, if_false]
      exact relaunch inside stopped own command (may _) unstarted
        fun now made new result recent' after launches inside =>
          holds made new result recent' after
            (.relaunched current (.already stopped) launches) inside
    · simp only [stopped, not_false_eq_true, if_true]
      refine bind (locked (stopLocked inside (may _)
        fun release halted result recent' after stops mayStill inside => ?_))
      match result with
      | .error raised => exact holds _ _ _ _ after (.kept current stops) inside
      | .ok deployment =>
          obtain ⟨rfl, halt⟩ := stops.ended
          refine relaunch inside halt ?_ command mayStill unstarted
            fun now made new result recent'' after launches inside => ?_
          · intro exchange member
            rcases List.mem_append.mp member with earlier | releasing
            · exact own exchange earlier
            · exact stops.unstarted exchange releasing
          · rw [List.append_assoc] at inside
            exact holds _ new result recent'' after (.relaunched current stops launches) inside
  · simp only [ne_eq, current, not_false_eq_true, if_true]
    exact throw (holds [] slot _ recent state (.conflict current)
      (by rw [List.append_nil]; exact inside))

/-- The compare-and-save of a reconcile computed from `deployment` and `previous`:
it writes only when these are still what is stored. -/
theorem compareAndSave (inside : Inside origin id slot calls recent state)
    {deployment : Deployment} {previous : Endpoint} {observation : EngineObservation}
    {now : Datetime} (about : deployment.id = id)
    (unchanged : slot.deployment.resourceVersion = deployment.resourceVersion →
      slot.deployment = deployment ∧ slot.endpoint = some previous)
    (live : deployment.observedState = .ready ∨ deployment.observedState = .degraded)
    (may : ∀ new, Reconciles slot new → MayWrite caller state.journal slot new)
    {post : Except Raised Deployment → State → Prop}
    (stale : slot.deployment.resourceVersion ≠ deployment.resourceVersion →
      post (.ok slot.deployment) state)
    (saved : ∀ new after, Reconciles slot new →
      new.deployment = reconciledDeployment deployment observation now →
      Inside origin id new calls [] after → post (.ok new.deployment) after) :
    InSection environment service caller
      (compareAndSave (reconciledDeployment deployment observation now)
        (reconciledEndpoint previous observation now) deployment.resourceVersion) post state := by
  unfold ReactorService.compareAndSave
  have wanted : (reconciledDeployment deployment observation now).id = id := about
  rw [wanted]
  refine requireDeployment_bind inside ?_
  by_cases current : slot.deployment.resourceVersion = deployment.resourceVersion
  · simp only [ne_eq, current, not_true_eq_false, if_false]
    obtain ⟨rfl, stored⟩ := unchanged current
    have reconciles : Reconciles slot
        ⟨reconciledDeployment slot.deployment observation now,
          some (reconciledEndpoint previous observation now), slot.executionRef⟩ :=
      ⟨live, previous, observation, now, stored, rfl⟩
    have named : slot.deployment.endpointId = some previous.id := inside.names stored
    have placed : Placed state slot (reconciledEndpoint previous observation now) :=
      inside.placed stored rfl rfl rfl rfl
    have running : observedOf observation ≠ .stopped := by
      unfold observedOf
      split <;> simp
    exact bind (savePair inside about named placed
      ⟨reconciles.transition, may _ reconciles, fun stopped => absurd stopped running,
        fun same => absurd same (Nat.succ_ne_self _)⟩
      fun after inside _ => pure (saved _ after reconciles rfl inside))
  · simp only [ne_eq, current, not_false_eq_true, if_true]
    exact pure (stale current)

/-- The engine call of a reconcile, which every command may make. -/
theorem inspectExecution (inside : Inside origin id slot calls recent state) {endpoint : Endpoint}
    {executionRef : String} {goal : Except Raised EngineObservation → State → Prop}
    (holds : ∀ made outcome recent' after, (∀ exchange ∈ made, exchange.inspects = true) →
      Inside origin id slot (calls ++ made) recent' after → goal outcome after) :
    InSection environment service caller
      (service.inspectExecution slot.deployment endpoint executionRef) goal state := by
  have silent : ∀ outcome, goal outcome state := fun outcome =>
    holds [] outcome recent state (fun _ member => absurd member List.not_mem_nil)
      (by rw [List.append_nil]; exact inside)
  have ask : ∀ engine identity version, InSection environment service caller
      (ReactorService.port engine
        (.inspect executionRef endpoint.url slot.deployment.id identity version)) goal state :=
    fun engine identity version => port inside inside.id_eq trivial fun answer after _ inside =>
      holds _ answer _ after (fun exchange member => by
        rw [List.mem_singleton.mp member]
        rfl) inside
  obtain ⟨model, placed⟩ := servingArtifact_validated slot.deployment
  unfold ReactorService.inspectExecution
  rw [placed]
  refine bind ⟨rfl, bind ⟨rfl, ?_⟩⟩
  cases service.engineFor slot.deployment.servingBindingId with
  | error raised => exact silent _
  | ok engine =>
      cases runtime : runtimeModelVersion slot.deployment with
      | none => exact ask engine model.digest none
      | some version =>
          simp only
          rw [servingIdentity_composed runtime]
          refine bind ⟨rfl, ?_⟩
          cases requireModelVersionKeyword engine .inspect with
          | error raised => exact silent _
          | ok _ => exact bind ⟨rfl, ask engine version.id (some version)⟩

/-- `get_deployment` under the lock refines `Reads`. -/
theorem getDeployment (inside : Inside origin id slot calls recent state)
    (may : ∀ journal new, Reconciles slot new → MayWrite caller journal slot new)
    {post : Except Raised Deployment → State → Prop}
    (holds : ∀ made new result recent' after, Reads slot made new result →
      Inside origin id new (calls ++ made) recent' after → post result after) :
    InSection environment service caller (service.getDeployment id) post state := by
  have read : post (.ok slot.deployment) state :=
    holds [] slot _ recent state (.unchanged (fun _ member => absurd member List.not_mem_nil)
      fun _ same => (Except.ok.inj same).symm) (by rw [List.append_nil]; exact inside)
  have observe : ∀ endpointId, slot.deployment.endpointId = some endpointId →
      (slot.deployment.observedState = .ready ∨ slot.deployment.observedState = .degraded) →
      InSection environment service caller (service.observeLive slot.deployment endpointId) post
        state := by
    intro endpointId named live
    rcases inside.consistent.linked.endpoint_of_slot inside.here with
      ⟨unnamed, _⟩ | ⟨endpoint, names, stored, _, lookup⟩
    · rw [unnamed] at named
      cases named
    · rw [names, Option.some.injEq] at named
      subst named
      refine requireEndpoint_bind lookup ?_
      rw [inside.id_eq]
      refine getExecutionRef_bind inside ?_
      cases slot.executionRef with
      | none => exact pure read
      | some executionRef =>
          refine bind (inspectExecution inside fun made outcome recent' after observes inside => ?_)
          match outcome with
          | .error raised =>
              exact holds made slot _ recent' after
                (.unchanged observes fun _ same => by cases same) inside
          | .ok observation =>
              change InSection environment service caller
                (reconcile slot.deployment endpoint observation) post after
              unfold ReactorService.reconcile
              split
              · exact utcNow_bind fun now => locked (compareAndSave inside inside.id_eq
                  (fun _ => ⟨rfl, stored⟩) live (may _) (fun stale => absurd rfl stale)
                  fun new after reconciles _ inside =>
                    holds made new _ [] after (.reconciled observes reconciles) inside)
              · exact pure (holds made slot _ recent' after (.unchanged observes fun _ same =>
                  (Except.ok.inj same).symm) inside)
  refine requireDeployment_bind inside ?_
  split
  · exact observe _ (by assumption) (.inl (by assumption))
  · exact observe _ (by assumption) (.inr (by assumption))
  · exact pure read

theorem createIntent (idle : Idle origin state) {request : CreateDeploymentRequest}
    {key : Option String} {now : Datetime} {deployment : Deployment}
    (command : caller.command = .create request key)
    (built : deployment = newDeployment request deployment.id now)
    (bound : ∃ engine, service.engineFor request.servingBindingId = .ok engine)
    (unresolved : origin.database.resolveIdempotency key (service.requestHash request) = .ok none)
    (drawn : deployment.id ∈ issued state.journal)
    (fresh : ∀ old ∈ origin.database.deployments.rows, old.id ≠ deployment.id)
    (unseen : ∀ event ∈ origin.journal, event.caller ≠ caller)
    {goal : Except Raised (Option Uuid) → State → Prop}
    (holds : ∀ after, Inside origin deployment.id ⟨deployment, none, none⟩ [] [] after →
      Created caller deployment.id after.journal → goal (.ok none) after) :
    InSection environment service caller
      (persistIntent deployment key (service.requestHash request)) goal state := by
  obtain ⟨events, grown, quiet⟩ := idle.grown
  have lawful : (Op.store (.createIntent deployment key (service.requestHash request))).Lawful
      service caller state := by
    refine ⟨request, now, command, rfl, built, bound, drawn, ?_, ?_⟩
    · rw [idle.untouched]
      exact List.find?_eq_none.mpr fun old member => by simpa using fresh old member
    · intro event member byCaller
      rw [grown, List.mem_append] at member
      rcases member with earlier | own
      · exact absurd byCaller (unseen event earlier)
      · exact (quiet event own).2
  refine bind (call lawful fun answer _ answers => ⟨rfl, ?_⟩)
  have accepted : (state.database.createIntent deployment key
      (service.requestHash request)).1 = .ok none := by
    rw [idle.untouched]
    exact origin.database.createIntent_admits unresolved fresh
  obtain rfl : answer = .ok none := answers.trans accepted
  obtain ⟨refused, _⟩ | ⟨_, admits⟩ :=
    state.database.createIntent_spec deployment key (service.requestHash request)
  · exact absurd accepted refused
  have unaddressed : deployment.endpointId = none := by
    rw [built]
    rfl
  let intent : Event := ⟨caller, .store (.createIntent deployment key (service.requestHash request)),
    .ok none⟩
  have writes : intent.writesSlot deployment.id = true := beq_self_eq_true deployment.id
  refine holds _ ⟨lawful.consistent idle.consistent, ?_, ?_, ?_, ?_⟩
    ⟨intent, List.mem_append_right _ (List.mem_singleton_self _), rfl, writes⟩
  · exact admits.slot_self idle.consistent.linked unaddressed
  · intro other different
    rw [← idle.untouched]
    exact admits.slot_other (Ne.symm different)
  · refine ⟨events ++ [intent], by rw [← List.append_assoc, ← grown]; rfl, ?_⟩
    rw [exchanges_append, exchanges_of_silent rfl, List.append_nil]
    exact List.filterMap_eq_nil_iff.mpr fun event member => (quiet event member).1
  · change sinceWrite deployment.id (state.journal ++ [intent]) = []
    rw [sinceWrite_append, if_pos writes]

/-- From the drawn id to the end of the launch. -/
theorem admitDeployment (idle : Idle origin state) {request : CreateDeploymentRequest}
    {key : Option String} {now : Datetime} {deployment : Deployment}
    (command : caller.command = .create request key)
    (built : deployment = newDeployment request deployment.id now)
    (unresolved : origin.database.resolveIdempotency key (service.requestHash request) = .ok none)
    (drawn : deployment.id ∈ issued state.journal)
    (fresh : ∀ old ∈ origin.database.deployments.rows, old.id ≠ deployment.id)
    (unseen : ∀ event ∈ origin.journal, event.caller ≠ caller)
    {post : Except Raised Deployment → State → Prop}
    (refused : ∀ raised, service.engineFor request.servingBindingId = .error raised →
      post (.error raised) state)
    (launched : ∀ made new result recent after,
      (∃ engine, service.engineFor request.servingBindingId = .ok engine) →
      Launches environment service ⟨deployment, none, none⟩ made new result →
      Inside origin deployment.id new made recent after → post result after) :
    InSection environment service caller
      (service.admitDeployment deployment key (service.requestHash request)) post state := by
  have binding : deployment.servingBindingId = request.servingBindingId := by
    rw [built]
    rfl
  have starting : deployment.observedState = .starting := by
    rw [built]
    rfl
  unfold ReactorService.admitDeployment
  rw [binding]
  cases bound : service.engineFor request.servingBindingId with
  | error raised => exact bind ⟨rfl, refused raised bound⟩
  | ok engine =>
      have persisted : ∀ {admitted : State} {goal : Except Raised (Option Uuid) → State → Prop},
          Idle origin admitted → deployment.id ∈ issued admitted.journal →
          (∀ after, InSection environment service caller (service.afterIntent deployment none) post
            after → goal (.ok none) after) →
          InSection environment service caller
            (persistIntent deployment key (service.requestHash request)) goal admitted := by
        intro admitted goal idle drawn continued
        refine createIntent idle command built ⟨engine, bound⟩ unresolved drawn fresh unseen
          fun saved within created => ?_
        have may : MayLaunch caller deployment.id saved.journal := by
          unfold MayLaunch
          rw [command]
          exact created
        have unstarted : ∀ event ∈ saved.journal, event.caller = caller →
            event.exchange?.any Exchange.starts = false :=
          within.unstarted (fun event member byCaller => absurd byCaller (unseen event member))
            fun _ member => absurd member List.not_mem_nil
        refine continued saved (appendEvent_bind within.restart fun queued inside =>
          transitionAndPersist inside fun dispatched inside => ?_)
        exact launch inside starting may unstarted
          (fun _ member => absurd member List.not_mem_nil)
          fun made new result recent after launches inside =>
            launched made new result recent after ⟨engine, bound⟩ launches (within.trans inside)
      refine bind ⟨rfl, bind ?_⟩
      rw [ReactorService.admitAndPersist_eq]
      split
      · refine bind (call trivial fun answer _ _ => ?_)
        have reported : Idle origin (state.after caller true
            (.activity (.admission (taskId deployment.id) .accepted)) answer) :=
          idle.after rfl ⟨rfl, rfl⟩
        exact persisted reported (issued_after drawn) fun _ rest => rest
      · exact persisted idle drawn fun _ rest => rest

/-- `_create_deployment` under the lock refines `Creates`. -/
theorem createLocked (consistent : Consistent state) {request : CreateDeploymentRequest}
    {key : Option String} (command : caller.command = .create request key)
    (unseen : ∀ event ∈ state.journal, event.caller ≠ caller) :
    InSection environment service caller (service.createLocked request key)
      (Creates environment service request key state) state := by
  refine read_bind rfl ?_
  change InSection environment service caller (Fallible.ofExcept
    (state.database.resolveIdempotency key (service.requestHash request)) >>= _) _ state
  cases resolved : state.database.resolveIdempotency key (service.requestHash request) with
  | error raised => exact bind ⟨rfl, .conflicting resolved⟩
  | ok replay =>
      refine bind ⟨rfl, ?_⟩
      match replay with
      | some id =>
          cases here : state.database.slot id with
          | none =>
              have missing : state.database.getDeployment id = none := by
                simpa only [Database.slot, Option.map_eq_none_iff] using here
              refine bind (read_bind rfl ?_)
              rw [show (StoreOp.run state.database (.getDeployment id)).1 = none from missing]
              exact throw (.missing resolved here)
          | some slot =>
              exact getDeployment (.start consistent here) (fun journal new reconciles => by
                unfold MayWrite
                rw [command]
                exact .inr reconciles)
                fun made new result recent after reads inside =>
                  .replayed resolved here reads inside
      | none =>
          refine utcNow_bind fun now => bind (call trivial fun (drawn : Uuid) _ fresh => ?_)
          have unused : ∀ old ∈ state.database.deployments.rows, old.id ≠ drawn :=
            fun old member same => fresh (same ▸ consistent.deploymentIssued old member)
          have absent : state.database.slot drawn = none := by
            have missing : state.database.getDeployment drawn = none :=
              List.find?_eq_none.mpr fun old member => by simpa using unused old member
            simp only [Database.slot, missing, Option.map_none]
          have known : drawn ∈ issued (state.after caller true .uuid4 drawn).journal := by
            change drawn ∈ issued (state.journal ++ [⟨caller, .uuid4, drawn⟩])
            rw [issued, List.filterMap_append]
            exact List.mem_append_right _ (List.mem_singleton_self drawn)
          have started : Idle state (state.after caller true .uuid4 drawn) :=
            (Idle.start consistent).after rfl ⟨rfl, rfl⟩
          exact admitDeployment started command rfl resolved known unused unseen
            (fun raised unbound => .unbound resolved unbound started)
            fun made new result recent after bound launches inside =>
              .launched resolved absent bound launches inside

end InSection

end CyreneReactor
