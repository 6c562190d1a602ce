import CyreneReactor.Lifecycle.Places

namespace CyreneReactor

open Interaction ReactorService

/-! Every section goes from place to place in the order of `service.py`.

What is proved of a program here holds for all answers but those the store computes:
the order of its marks does not depend on what the deployment is stored as.
-/

/-- Where the sections that begin in a state stand. -/
def State.found (state : State) (id : Uuid) : Place :=
  .outside ((state.database.getDeployment id).map Deployment.observedState)

section

variable (environment : Environment) (service : ReactorService) (origin : State)

/-- A section that began in `origin` stands at `place` with the deployment. -/
structure Stands (id : Uuid) (place : Place) (state : State) : Prop where
  marked : (marks environment service).At (Place.next service.tracked) origin.found origin id place
    state
  unwritten : place.untouched = true → state.database = origin.database

/-- Everything marked since `origin` was in order. -/
def Ordered (state : State) : Prop :=
  (marks environment service).Within (Place.next service.tracked) origin.found origin state

/-- Run under the lock, the program goes in order from `place` to one of its ends. -/
def Walks {ε α : Type} (caller : Caller Command) (id : Uuid) (place : Place)
    (program : Fallible productSignature ε α) (ends : Except ε α → Place → Prop) : Prop :=
  ∀ state, Stands environment service origin id place state →
    @Held (service.system environment) (Except ε α) caller
      (fun _ after => Ordered environment service origin after) 0 program.run
      (fun outcome after =>
        ∃ last, ends outcome last ∧ Stands environment service origin id last after) state

end

def Op.Silent (op : Op) : Prop :=
  (∀ answer id, op.mark answer id = none) ∧ ∀ database, op.effect database = database

def Silent {α : Type} : Program productSignature α → Prop
  | .pure _ => True
  | .call op next => Op.Silent op ∧ ∀ answer, Silent (next answer)
  | .acquire _ | .release _ => False

section Silence

variable {ε α β : Type}

theorem Silent.bind {program : Program productSignature α} {next : α → Program productSignature β}
    (silent : Silent program) (rest : ∀ value, Silent (next value)) :
    Silent (program.bind next) := by
  induction program with
  | pure value => exact rest value
  | call op continued ih => exact ⟨silent.1, fun answer => ih answer (silent.2 answer)⟩
  | acquire | release => exact silent.elim

theorem Silent.bind_run {first : Fallible productSignature ε α}
    {next : α → Fallible productSignature ε β} (silent : Silent first.run)
    (rest : ∀ value, Silent (next value).run) : Silent (first >>= next).run := by
  rw [ExceptT.run_bind]
  apply Silent.bind silent
  intro outcome
  cases outcome with
  | ok value => exact rest value
  | error raised => trivial

theorem silent_ofExcept (outcome : Except ε α) :
    Silent (Fallible.ofExcept outcome : Fallible productSignature ε α).run :=
  trivial

theorem silent_during {locals : LaunchLocals} {body : Service α} (silent : Silent body.run) :
    Silent (during locals body).run :=
  Silent.bind silent fun _ => trivial

theorem silent_call {op : Op} (silent : op.Silent) : Silent (call op).run :=
  ⟨silent, fun _ => trivial⟩

theorem silent_store {op : StoreOp} (reads : op.writes = false) : Silent (store op).run := by
  refine silent_call ⟨fun answer id => Op.unmarked_of_unrecorded (by rw [Op.recorded, reads]), ?_⟩
  exact StoreOp.run_of_not_writes reads

theorem silent_utcNow : Silent utcNow.run := silent_call ⟨fun _ _ => rfl, fun _ => rfl⟩

theorem silent_uuid4 : Silent uuid4.run := silent_call ⟨fun _ _ => rfl, fun _ => rfl⟩

theorem silent_port {engine : Engine} {request : PortCall}
    (unmarked : ∀ answer, request.mark answer = none) : Silent (port engine request).run := by
  refine Silent.bind_run (silent_call ⟨fun answer id => ?_, fun _ => rfl⟩) fun answer => trivial
  have quiet : request.mark answer = none := unmarked answer
  change (request.mark answer).bind _ = none
  rw [quiet]
  rfl

theorem silent_requireDeployment (id : Uuid) : Silent (requireDeployment id).run := by
  refine Silent.bind_run (silent_store rfl) fun found => ?_
  cases found <;> trivial

theorem silent_requireEndpoint (id : Uuid) : Silent (requireEndpoint id).run := by
  refine Silent.bind_run (silent_store rfl) fun found => ?_
  cases found <;> trivial

theorem silent_previousEndpoint (deployment : Deployment) :
    Silent (previousEndpoint deployment).run := by
  unfold previousEndpoint
  split
  · trivial
  · exact Silent.bind_run (silent_requireEndpoint _) fun endpoint => trivial

theorem silent_nextEndpoint (deployment : Deployment) (state : EndpointState) (url : String)
    (model : Option Endpoint → Option String) (now : Datetime) :
    Silent (nextEndpoint deployment state url model now).run := by
  refine Silent.bind_run (silent_previousEndpoint deployment) fun previous => ?_
  refine Silent.bind_run ?_ fun endpointId => trivial
  unfold endpointIdOrNew
  split
  · exact silent_uuid4
  · trivial

theorem silent_catchFailure {body : Service α} (silent : Silent body.run) :
    Silent (catchFailure body).run := by
  refine Silent.bind silent fun outcome => ?_
  rcases outcome with (error | failure | kind) | value <;> trivial

theorem silent_stopWithModelVersion (engine : Engine) (reference url : String) (id : Uuid)
    (digest : String) (version : Option ModelVersionDocument) :
    Silent (stopWithModelVersion engine reference url id digest version).run := by
  unfold stopWithModelVersion
  split
  · exact Silent.bind_run (silent_port fun _ => rfl) fun _ => trivial
  · trivial

theorem silent_failComposedIdentity (engine : Engine) (deployment : Deployment)
    (version : ModelVersionDocument) (handle : EngineHandle) :
    Silent (failComposedIdentity engine deployment version handle).run := by
  refine Silent.bind_run (silent_catchFailure ?_) fun cleanup => trivial
  refine Silent.bind_run ?_ fun _ => silent_stopWithModelVersion _ _ _ _ _ _
  trivial

theorem silent_verifyStartedModelIdentity (engine : Engine) (id : Uuid) (handle : EngineHandle) :
    Silent (verifyStartedModelIdentity engine id handle).run := by
  unfold verifyStartedModelIdentity
  cases offered : engine.verifiesServedModel with
  | true => exact silent_port fun _ => rfl
  | false => trivial

theorem silent_cleanupStartedExecution (engine : Engine) (deployment : Deployment)
    (handle : EngineHandle) (digest : String) (version : Option ModelVersionDocument) :
    Silent (cleanupStartedExecution engine deployment handle digest version).run := by
  refine Silent.bind_run (silent_catchFailure ?_) fun cleanup => ?_
  · split
    · refine Silent.bind_run ?_ fun _ => silent_stopWithModelVersion _ _ _ _ _ _
      trivial
    · exact silent_stopWithModelVersion _ _ _ _ _ _
  · cases cleanup <;> trivial

theorem silent_compensate (deployment : Deployment) (locals : LaunchLocals)
    (failure : ServingEngineFailure) : Silent (compensate deployment locals failure).run := by
  unfold compensate
  split
  · exact Silent.bind_run (silent_cleanupStartedExecution _ _ _ _ _) fun _ => trivial
  · trivial

variable (service : ReactorService)

theorem silent_inspectExecution (deployment : Deployment) (endpoint : Endpoint) (reference : String) :
    Silent (service.inspectExecution deployment endpoint reference).run := by
  refine Silent.bind_run trivial fun model => Silent.bind_run trivial fun engine => ?_
  split
  · exact silent_port fun _ => rfl
  · refine Silent.bind_run trivial fun _ => Silent.bind_run trivial fun identity => ?_
    exact silent_port fun _ => rfl

theorem silent_stopExecution (deployment : Deployment) (endpoint : Endpoint) (reference : String) :
    Silent (service.stopExecution deployment endpoint reference).run := by
  refine Silent.bind_run trivial fun model => Silent.bind_run trivial fun engine => ?_
  split
  · exact Silent.bind_run (silent_port fun _ => rfl) fun _ => trivial
  · refine Silent.bind_run trivial fun _ => Silent.bind_run trivial fun identity => ?_
    exact Silent.bind_run (silent_port fun _ => rfl) fun _ => trivial

theorem silent_releaseExecution (deployment : Deployment) (endpoint : Option Endpoint)
    (reference : Option String) :
    Silent (service.releaseExecution deployment endpoint reference).run := by
  unfold releaseExecution
  split
  · refine Silent.bind_run (silent_catchFailure (silent_stopExecution service _ _ _)) fun released => ?_
    cases released <;> trivial
  · trivial

end Silence

theorem taskId_injective : Function.Injective taskId := fun _ _ same =>
  Uuid.str_injective (String.append_right_inj _ |>.mp same)

section Rules

variable {environment : Environment} {service : ReactorService} {origin state : State}
variable {caller : Caller Command} {id : Uuid} {place place' : Place}
variable {ε α β : Type}

theorem Stands.initial : Stands environment service origin id (origin.found id) origin :=
  ⟨Trail.At.initial, fun _ => rfl⟩

theorem Stands.ordered (stands : Stands environment service origin id place state) :
    Ordered environment service origin state :=
  stands.marked.within

theorem Stands.performs {op : Op} {answer : op.Answer}
    (admitted : environment state.database op answer) (answers : Answers state op answer) :
    (service.system environment).exec caller true op state answer
      (state.after caller true op answer) :=
  ⟨admitted, answers, rfl⟩

/-- What leaves no mark leaves the section where it stands. -/
theorem Stands.quiet {op : Op} {answer : op.Answer}
    (stands : Stands environment service origin id place state)
    (admitted : environment state.database op answer) (answers : Answers state op answer)
    (unmarked : ∀ other, op.mark answer other = none)
    (kept : place.untouched = true → op.effect state.database = state.database) :
    Stands environment service origin id place (state.after caller true op answer) where
  marked := stands.marked.quiet (performs admitted answers) unmarked
  unwritten untouched := (kept untouched).trans (stands.unwritten untouched)

theorem Stands.step {op : Op} {answer : op.Answer} {mark : Mark}
    (stands : Stands environment service origin id place state)
    (admitted : environment state.database op answer) (answers : Answers state op answer)
    (marks : op.mark answer id = some mark)
    (unmarked : ∀ other, other ≠ id → op.mark answer other = none)
    (allowed : place.next service.tracked mark = some place')
    (kept : place'.untouched = true →
      place.untouched = true ∧ op.effect state.database = state.database) :
    Stands environment service origin id place' (state.after caller true op answer) where
  marked := stands.marked.marked (performs admitted answers) marks unmarked allowed
  unwritten untouched := (kept untouched).2.trans (stands.unwritten (kept untouched).1)

namespace Walks

theorem mono {program : Fallible productSignature ε α} {strong weak : Except ε α → Place → Prop}
    (walks : Walks environment service origin caller id place program strong)
    (implies : ∀ outcome last, strong outcome last → weak outcome last) :
    Walks environment service origin caller id place program weak := by
  intro state stands
  refine (walks state stands).mono fun outcome after ended => ?_
  obtain ⟨last, ends, there⟩ := ended
  exact ⟨last, implies outcome last ends, there⟩

theorem bind {first : Fallible productSignature ε α} {next : α → Fallible productSignature ε β}
    {between : Except ε α → Place → Prop} {ends : Except ε β → Place → Prop}
    (walks : Walks environment service origin caller id place first between)
    (returned : ∀ value middle, between (.ok value) middle →
      Walks environment service origin caller id middle (next value) ends)
    (raised : ∀ raised middle, between (.error raised) middle → ends (.error raised) middle) :
    Walks environment service origin caller id place (first >>= next) ends := by
  intro state stands
  refine Held.bind_run ((walks state stands).mono fun outcome after ended => ?_)
  obtain ⟨middle, reached, there⟩ := ended
  cases outcome with
  | ok value => exact returned value middle reached after there
  | error error => exact ⟨middle, raised error middle reached, there⟩

theorem pure {value : α} {ends : Except ε α → Place → Prop} (ended : ends (.ok value) place) :
    Walks environment service origin caller id place (pure value) ends :=
  fun _ stands => ⟨rfl, place, ended, stands⟩

theorem throw {raised : ε} {ends : Except ε α → Place → Prop} (ended : ends (.error raised) place) :
    Walks environment service origin caller id place (throw raised) ends :=
  fun _ stands => ⟨rfl, place, ended, stands⟩

theorem locked {body : Fallible productSignature ε α} {ends : Except ε α → Place → Prop}
    (walks : Walks environment service origin caller id place body ends) :
    Walks environment service origin caller id place (Fallible.locked body) ends :=
  fun state stands => Held.locked (walks state stands)

theorem silent {program : Fallible productSignature ε α} {ends : Except ε α → Place → Prop}
    (silent : Silent program.run) (ended : ∀ outcome, ends outcome place) :
    Walks environment service origin caller id place program ends := by
  intro state stands
  have stays : ∀ {program : Program productSignature (Except ε α)} {state : State},
      Silent program → Stands environment service origin id place state →
      @Held (service.system environment) (Except ε α) caller
        (fun _ after => Ordered environment service origin after) 0 program
        (fun _ after => Stands environment service origin id place after) state := by
    intro program state silent stands
    induction program generalizing state with
    | pure value => exact ⟨rfl, stands⟩
    | call op next ih =>
        rintro answer after ⟨admitted, answers, rfl⟩
        have there : Stands environment service origin id place
            (state.after caller true op answer) :=
          stands.quiet admitted answers (silent.1.1 answer) fun _ => silent.1.2 _
        exact ⟨there.ordered, ih answer (silent.2 answer) there⟩
    | acquire | release => exact silent.elim
  refine (stays silent stands).mono fun outcome after there => ?_
  exact ⟨place, ended outcome, there⟩

theorem silent_bind {first : Fallible productSignature ε α} {next : α → Fallible productSignature ε β}
    {ends : Except ε β → Place → Prop} (quiet : Silent first.run)
    (raised : ∀ raised, ends (.error raised) place)
    (returned : ∀ value, Walks environment service origin caller id place (next value) ends) :
    Walks environment service origin caller id place (first >>= next) ends := by
  have stays : Walks environment service origin caller id place first fun _ last => last = place :=
    silent quiet fun _ => rfl
  apply bind stays
  · rintro value middle rfl
    exact returned value
  · rintro error middle rfl
    exact raised error

theorem during {locals : LaunchLocals} {body : Service α}
    {ends : Except (LaunchLocals × Raised) α → Place → Prop}
    (walks : Walks environment service origin caller id place body
      fun outcome last => ends (outcome.mapError (Prod.mk locals)) last) :
    Walks environment service origin caller id place (ReactorService.during locals body) ends := by
  intro state stands
  change @Held (service.system environment) _ caller _ 0
    (body.run.bind fun outcome => Program.pure (outcome.mapError (Prod.mk locals))) _ state
  apply Held.bind
  exact (walks state stands).mono fun outcome after ended => ⟨rfl, ended⟩

theorem during_bind {locals : LaunchLocals} {body : Service α}
    {next : α → Fallible productSignature (LaunchLocals × Raised) β}
    {between : Except Raised α → Place → Prop}
    {ends : Except (LaunchLocals × Raised) β → Place → Prop}
    (walks : Walks environment service origin caller id place body between)
    (returned : ∀ value middle, between (.ok value) middle →
      Walks environment service origin caller id middle (next value) ends)
    (raised : ∀ raised middle, between (.error raised) middle →
      ends (.error (locals, raised)) middle) :
    Walks environment service origin caller id place
      (ReactorService.during locals body >>= next) ends := by
  have surrounded : Walks environment service origin caller id place
      (ReactorService.during locals body) fun outcome last =>
        match outcome with
        | .ok value => between (.ok value) last
        | .error failed => between (.error failed.2) last ∧ failed.1 = locals := by
    refine during (walks.mono fun outcome last reached => ?_)
    cases outcome with
    | ok value => exact reached
    | error raised => exact ⟨reached, rfl⟩
  apply bind surrounded
  · exact fun value middle reached => returned value middle reached
  · rintro ⟨_, error⟩ middle ⟨reached, rfl⟩
    exact raised error middle reached

/-- The rule for one call. -/
theorem call {op : Op} {ends : Except Raised op.Answer → Place → Prop}
    (moves : ∀ state answer, Stands environment service origin id place state →
      environment state.database op answer → Answers state op answer →
      ∃ last, ends (.ok answer) last ∧
        Stands environment service origin id last (state.after caller true op answer)) :
    Walks environment service origin caller id place (call op) ends := by
  intro state stands
  refine Held.perform_run fun answer after does => ?_
  obtain ⟨admitted, answers, rfl⟩ := does
  obtain ⟨last, ended, there⟩ := moves state answer stands admitted answers
  exact ⟨there.ordered, last, ended, there⟩

theorem stored {op : StoreOp} {mark : Mark} {ends : Except Raised op.Answer → Place → Prop}
    (allowed : place.next service.tracked mark = some place') (written : place'.untouched = false)
    (answered : ∀ state answer, (place.untouched = true → state.database = origin.database) →
      Answers state (.store op) answer → op.mark answer = some (id, mark) ∧ ends (.ok answer) place') :
    Walks environment service origin caller id place (store op) ends := by
  refine call fun state answer stands admitted answers => ?_
  obtain ⟨marked, ended⟩ := answered state answer stands.unwritten answers
  refine ⟨place', ended, stands.step admitted answers ?_ ?_ allowed ?_⟩
  · change (op.mark answer).bind _ = _
    rw [marked]
    exact if_pos rfl
  · intro other different
    change (op.mark answer).bind _ = _
    rw [marked]
    exact if_neg (Ne.symm different)
  · intro untouched
    rw [written] at untouched
    cases untouched

theorem storeEncoded {encodes : Bool} {op : StoreOp} {ends : Except Raised op.Answer → Place → Prop}
    (unsaved : ∀ raised, ends (.error raised) place)
    (saved : Walks environment service origin caller id place (store op) ends) :
    Walks environment service origin caller id place (ReactorService.storeEncoded encodes op) ends :=
  silent_bind (silent_ofExcept _) unsaved fun _ => saved

/-- A call that leaves no mark, and what follows its answer. -/
theorem ask_bind {op : Op} {next : op.Answer → Service β} {ends : Except Raised β → Place → Prop}
    (quiet : op.Silent)
    (returned : ∀ answer, Walks environment service origin caller id place (next answer) ends) :
    Walks environment service origin caller id place (ReactorService.call op >>= next) ends := by
  have asked : Walks environment service origin caller id place (ReactorService.call op)
      fun outcome last => (∃ answer, outcome = .ok answer) ∧ last = place :=
    call fun state answer stands admitted answers =>
      ⟨place, ⟨⟨answer, rfl⟩, rfl⟩,
        stands.quiet admitted answers (quiet.1 answer) fun _ => quiet.2 _⟩
  apply bind asked
  · rintro answer middle ⟨_, rfl⟩
    exact returned answer
  · rintro raised middle ⟨⟨_, same⟩, _⟩
    cases same

theorem utcNow_bind {next : Datetime → Service β} {ends : Except Raised β → Place → Prop}
    (returned : ∀ now, Walks environment service origin caller id place (next now) ends) :
    Walks environment service origin caller id place (utcNow >>= next) ends :=
  ask_bind ⟨fun _ _ => rfl, fun _ => rfl⟩ returned

/-- `_append_deployment_event` never fails. -/
theorem appendEvent {phase : DeploymentPhase} {message : String} {code : Option String}
    (allowed : place.next service.tracked (.announced phase) = some place')
    (written : place'.untouched = false) :
    Walks environment service origin caller id place
      (ReactorService.appendEvent id phase message code)
      fun outcome last => outcome = .ok () ∧ last = place' := by
  refine utcNow_bind fun now => ?_
  have saved : Walks environment service origin caller id place
      (store (.appendDeploymentEvent id phase message now code))
      fun outcome last => (∃ event, outcome = .ok (.ok event)) ∧ last = place' := by
    refine stored allowed written fun state answer _ answers => ⟨rfl, ?_⟩
    obtain ⟨events, spec⟩ := state.database.appendDeploymentEvent_spec id phase message now code
    have same : answer = .ok _ := Eq.trans answers (congrArg Prod.fst spec)
    exact ⟨⟨_, congrArg Except.ok same⟩, rfl⟩
  apply bind saved
  · rintro outcome middle ⟨⟨event, same⟩, rfl⟩
    cases same
    exact pure ⟨rfl, rfl⟩
  · rintro raised middle ⟨⟨_, same⟩, _⟩
    cases same

theorem appendEvent_bind {phase : DeploymentPhase} {message : String} {code : Option String}
    {next : Unit → Service β} {ends : Except Raised β → Place → Prop}
    (allowed : place.next service.tracked (.announced phase) = some place')
    (written : place'.untouched = false)
    (returned : Walks environment service origin caller id place' (next ()) ends) :
    Walks environment service origin caller id place
      (ReactorService.appendEvent id phase message code >>= next) ends := by
  apply bind (appendEvent allowed written)
  · rintro value middle ⟨_, rfl⟩
    exact returned
  · rintro raised middle ⟨same, _⟩
    cases same

theorem recordDeploymentDiagnostic_bind {message level : String} {code : Option String}
    {next : Unit → Service β} {ends : Except Raised β → Place → Prop}
    (written : place.untouched = false)
    (returned : Walks environment service origin caller id place (next ()) ends) :
    Walks environment service origin caller id place
      (recordDeploymentDiagnostic id message level code >>= next) ends := by
  have recorded : Walks environment service origin caller id place
      (recordDeploymentDiagnostic id message level code)
      fun outcome last => outcome = .ok () ∧ last = place := by
    refine utcNow_bind fun now => call fun state answer stands admitted answers => ?_
    refine ⟨place, ⟨rfl, rfl⟩, stands.quiet admitted answers (fun _ => rfl) fun untouched => ?_⟩
    rw [written] at untouched
    cases untouched
  apply bind recorded
  · rintro value middle ⟨_, rfl⟩
    exact returned
  · rintro raised middle ⟨same, _⟩
    cases same

theorem report_bind {activity : ActivityCall} {next : Unit → Service β}
    {ends : Except Raised β → Place → Prop} (about : activity.task = taskId id)
    (allowed : place.next service.tracked activity.report = some place')
    (kept : place'.untouched = true → place.untouched = true)
    (returned : Walks environment service origin caller id place' (next ()) ends) :
    Walks environment service origin caller id place (report activity >>= next) ends := by
  have reported : Walks environment service origin caller id place (report activity)
      fun outcome last => outcome = .ok () ∧ last = place' :=
    call fun state answer stands admitted answers =>
      ⟨place', ⟨rfl, rfl⟩, stands.step admitted answers (if_pos about)
        (fun other different => if_neg fun same =>
          different (taskId_injective (same.symm.trans about)))
        allowed fun untouched => ⟨kept untouched, rfl⟩⟩
  apply bind reported
  · rintro value middle ⟨_, rfl⟩
    exact returned
  · rintro raised middle ⟨same, _⟩
    cases same

theorem admitAndPersist {taskState : TaskState} {persist : Service α}
    {ends : Except Raised α → Place → Prop}
    (tracked : service.tracked = true → ∃ middle,
      place.next true (.admission taskState) = some middle ∧
        (middle.untouched = true → place.untouched = true) ∧
        Walks environment service origin caller id middle persist ends)
    (untracked : service.tracked = false →
      Walks environment service origin caller id place persist ends) :
    Walks environment service origin caller id place
      (service.admitAndPersist (taskId id) taskState persist) ends := by
  rw [ReactorService.admitAndPersist_eq]
  cases activity : service.tracked with
  | false => exact untracked activity
  | true =>
      obtain ⟨middle, allowed, kept, walks⟩ := tracked activity
      refine report_bind rfl ?_ kept walks
      rw [activity]
      exact allowed

theorem transitionAndPersist {taskState : TaskState} {persist : Service α}
    {ends : Except Raised α → Place → Prop}
    (tracked : service.tracked = true → ∃ middle,
      place.next true (.transition taskState) = some middle ∧
        (middle.untouched = true → place.untouched = true) ∧
        Walks environment service origin caller id middle persist ends)
    (untracked : service.tracked = false →
      Walks environment service origin caller id place persist ends) :
    Walks environment service origin caller id place
      (service.transitionAndPersist (taskId id) taskState persist) ends := by
  rw [ReactorService.transitionAndPersist_eq]
  cases activity : service.tracked with
  | false => exact untracked activity
  | true =>
      obtain ⟨middle, allowed, kept, walks⟩ := tracked activity
      refine report_bind rfl ?_ kept walks
      rw [activity]
      exact allowed

/-- The save leads to `early`, and the report after it to `done`. -/
theorem completeAfterPersist {persist : Service Unit} {early done : Place}
    {ends : Except Raised Unit → Place → Prop}
    (walks : Walks environment service origin caller id place persist fun outcome last =>
      match outcome with
      | .ok _ => last = if service.tracked then early else done
      | .error raised => ends (.error raised) last)
    (completes : early.next true .complete = some done) (written : done.untouched = false)
    (ended : ends (.ok ()) done) :
    Walks environment service origin caller id place
      (service.completeAfterPersist (taskId id) persist) ends := by
  rw [ReactorService.completeAfterPersist_eq]
  cases activity : service.tracked with
  | false =>
      refine walks.mono fun outcome last reached => ?_
      rw [activity] at reached
      cases outcome with
      | ok value =>
          rw [show last = done from reached]
          exact ended
      | error raised => exact reached
  | true =>
      rw [activity] at walks
      apply bind walks
      · intro value middle reached
        rw [show middle = early from reached]
        have reported : Walks environment service origin caller id early
            (report (.complete (taskId id)) >>= Pure.pure) ends := by
          refine report_bind rfl ?_ ?_ (pure ended)
          · rw [activity]
            exact completes
          · rw [written]
            exact nofun
        rw [bind_pure] at reported
        exact reported
      · exact fun raised middle reached => reached

end Walks

end Rules

end CyreneReactor
