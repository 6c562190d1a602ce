import CyreneReactor.Lifecycle.Discipline
import CyreneReactor.Service.Script

namespace CyreneReactor

open Interaction ReactorService

/-! A key creates one deployment.

The idempotency table is the history of the keyed creates that were committed,
and every other request with a known key is answered from it.
-/

variable {environment : Environment} {service : ReactorService}

/-- The retry identity an event committed together with a new deployment. -/
def Event.intent? : Event → Option IdempotencyRow
  | ⟨_, .store (.createIntent deployment (some key) digest), .ok none⟩ =>
      some ⟨Database.createDeploymentScope, key, digest, deployment.id⟩
  | _ => none

theorem Event.created?_eq_some {caller : Caller Command} {op : Op} {answer : op.Answer}
    {deployment : Deployment}
    (creates : (Event.mk caller op answer).created? = some deployment) :
    ∃ key digest, Event.mk caller op answer =
      ⟨caller, .store (.createIntent deployment key digest), .ok none⟩ := by
  cases op with
  | store op =>
      cases op with
      | createIntent other key digest =>
          match answer, creates with
          | .ok none, creates =>
              cases creates
              exact ⟨key, digest, rfl⟩
      | saveDeployment | savePair | getDeployment | getEndpoint | getExecutionRef
      | resolveIdempotency | appendDeploymentEvent | appendDeploymentDiagnostics => cases creates
  | utcNow | uuid4 | port | activity => cases creates

theorem created_iff {caller : Caller Command} {id : Uuid} {journal : List Event} :
    Created caller id journal ↔ ∃ event ∈ journal, event.caller = caller ∧
      ∃ deployment, event.created? = some deployment ∧ deployment.id = id := by
  refine exists_congr fun event => and_congr_right fun _ => and_congr_right fun _ => ?_
  cases event.created? <;> simp

/-- The idempotency table grows by exactly what an event commits. -/
theorem State.idempotency_after {state : State} {caller : Caller Command} {op : Op}
    {answer : op.Answer} (answers : Answers state op answer) :
    (state.after caller true op answer).database.idempotency.rows =
      state.database.idempotency.rows ++ (Event.mk caller op answer).intent?.toList := by
  cases op with
  | utcNow | uuid4 | port | activity => exact (List.append_nil _).symm
  | store op =>
      cases op with
      | getDeployment | getEndpoint | getExecutionRef | resolveIdempotency | saveDeployment
      | savePair | appendDeploymentDiagnostics => exact (List.append_nil _).symm
      | appendDeploymentEvent deploymentId phase message occurredAt failureCode =>
          obtain ⟨events, appended⟩ := state.database.appendDeploymentEvent_spec deploymentId phase
            message occurredAt failureCode
          simp only [State.after, Op.effect, StoreOp.run, appended]
          exact (List.append_nil _).symm
      | createIntent deployment key digest =>
          rcases state.database.createIntent_spec deployment key digest with
            ⟨refused, unchanged⟩ | ⟨accepted, admits⟩
          · have silent : answer ≠ .ok none := fun accepted => refused (answers.symm.trans accepted)
            have nothing : (Event.mk caller (.store (.createIntent deployment key digest))
                answer).intent? = none := by
              cases key with
              | none => rfl
              | some used =>
                  rcases answer with raised | (_ | replay)
                  · rfl
                  · exact absurd rfl silent
                  · rfl
            rw [nothing]
            exact (congrArg (fun database : Database => database.idempotency.rows) unchanged).trans
              (List.append_nil _).symm
          · obtain rfl : answer = .ok none := answers.trans accepted
            refine admits.idempotency.trans (congrArg _ ?_)
            cases key <;> rfl

/-- What is stored is what was committed, each deployment by a create of its own. -/
structure Intents (service : ReactorService) (state : State) : Prop where
  remembered : state.database.idempotency.rows = state.journal.filterMap Event.intent?
  stored : ∀ event ∈ state.journal, ∀ deployment, event.created? = some deployment →
    ∃ slot, state.database.slot deployment.id = some slot
  created : ∀ id slot, state.database.slot id = some slot →
    ∃ event ∈ state.journal, ∃ deployment, event.created? = some deployment ∧ deployment.id = id
  commanded : ∀ event ∈ state.journal, ∀ deployment, event.created? = some deployment →
    ∃ request key, event.caller.command = .create request key ∧
      event.intent? = key.map fun used =>
        ⟨Database.createDeploymentScope, used, service.requestHash request, deployment.id⟩
  apart : state.journal.Pairwise fun earlier later => ∀ first second,
    earlier.created? = some first → later.created? = some second →
      earlier.caller ≠ later.caller ∧ first.id ≠ second.id

theorem Intents.step {state : State} {caller : Caller Command} {op : Op} {answer : op.Answer}
    (before : Intents service state) (recorded : op.recorded = true)
    (consistent : Consistent state) (answers : Answers state op answer)
    (lawful : op.Lawful service caller state) :
    Intents service (state.after caller true op answer) := by
  let event : Event := ⟨caller, op, answer⟩
  have journal : (state.after caller true op answer).journal = state.journal ++ [event] :=
    State.after_recorded recorded
  have steps : ∀ id, SlotStep service event state.journal id (state.database.slot id)
      ((state.after caller true op answer).database.slot id) :=
    fun id => lawful.slotStep consistent answers id
  -- What a commit knows about its deployment before it is stored.
  have commits : ∀ deployment, event.created? = some deployment →
      (∃ request key, caller.command = .create request key ∧
        event.intent? = key.map fun used =>
          ⟨Database.createDeploymentScope, used, service.requestHash request, deployment.id⟩) ∧
      state.database.getDeployment deployment.id = none ∧
      ∀ earlier ∈ state.journal, earlier.caller = caller → earlier.created? = none := by
    intro deployment creates
    obtain ⟨key, digest, same⟩ := Event.created?_eq_some creates
    cases same
    obtain ⟨request, now, command, rfl, _, _, _, absent, first⟩ := lawful
    refine ⟨⟨request, key, command, ?_⟩, absent, first⟩
    cases key <;> rfl
  constructor
  · rw [journal, List.filterMap_append, ← before.remembered, State.idempotency_after answers]
    refine congrArg _ ?_
    cases intent : Event.intent? event with
    | none => simp [event, intent]
    | some row => simp [event, intent]
  · intro old member deployment creates
    have step := steps deployment.id
    rw [journal] at member
    rcases List.mem_append.mp member with earlier | last
    · obtain ⟨slot, here⟩ := before.stored old earlier deployment creates
      rw [here] at step
      generalize (state.after caller true op answer).database.slot deployment.id = new at step
      cases step with
      | same | written => exact ⟨_, rfl⟩
    · obtain rfl := List.mem_singleton.mp last
      have writes : event.writesSlot deployment.id = true := Event.writesSlot_of_created creates
      generalize state.database.slot deployment.id = old at step
      generalize (state.after caller true op answer).database.slot deployment.id = new at step
      cases step with
      | same unwritten =>
          have unwritten : event.writesSlot deployment.id = false := unwritten
          rw [writes] at unwritten
          cases unwritten
      | created | written => exact ⟨_, rfl⟩
  · intro id slot here
    have step := steps id
    rw [here] at step
    rw [journal]
    have kept : ∀ old, state.database.slot id = some old → ∃ event' ∈ state.journal ++ [event],
        ∃ deployment, event'.created? = some deployment ∧ deployment.id = id := by
      intro old found
      obtain ⟨earlier, member, made⟩ := before.created id old found
      exact ⟨earlier, List.mem_append_left _ member, made⟩
    generalize found : state.database.slot id = old at step
    cases step with
    | same => exact kept slot found
    | created _ _ creates =>
        exact ⟨event, List.mem_append_right _ (List.mem_singleton_self _), _, creates, rfl⟩
    | written => exact kept _ found
  · intro old member deployment creates
    rw [journal] at member
    rcases List.mem_append.mp member with earlier | last
    · exact before.commanded old earlier deployment creates
    · obtain rfl := List.mem_singleton.mp last
      exact (commits deployment creates).1
  · rw [journal]
    refine List.pairwise_append.mpr ⟨before.apart, List.pairwise_singleton _ _, ?_⟩
    intro earlier member last isLast first second creates creates'
    obtain rfl := List.mem_singleton.mp isLast
    obtain ⟨_, absent, unseen⟩ := commits second creates'
    refine ⟨fun same => ?_, fun same => ?_⟩
    · rw [unseen earlier member same] at creates
      cases creates
    · obtain ⟨slot, here⟩ := before.stored earlier member first creates
      rw [same] at here
      rw [(Database.slot_eq_some here).1] at absent
      cases absent

theorem Evolves.intents {state : State}
    (evolves : Evolves environment service State.initial state) : Intents service state :=
  (evolves.invariant (Intents service)
    (fun recorded consistent before _ answers lawful =>
      before.step recorded consistent answers lawful)
    initial_consistent
    ⟨rfl, fun _ member => absurd member List.not_mem_nil, fun _ _ here => (by cases here),
      fun _ member => absurd member List.not_mem_nil, .nil⟩).2

/-- An engine was asked to start an execution by a create that carries the key. -/
def Event.startsFor (key : String) (event : Event) : Bool :=
  match event.caller.command with
  | .create _ (some used) => used == key && event.exchange?.any Exchange.starts
  | _ => false

/-- Creates launch only what they created, and start it once. -/
structure Launchers (state : State) : Prop where
  created : ∀ event ∈ state.journal, ∀ request key id, event.caller.command = .create request key →
    event.exchange?.any (Exchange.launches id) = true → Created event.caller id state.journal
  once : state.journal.Pairwise fun earlier later =>
    earlier.exchange?.any Exchange.starts = true → later.exchange?.any Exchange.starts = true →
      earlier.caller ≠ later.caller

theorem Created.mono {caller : Caller Command} {id : Uuid} {journal : List Event}
    (created : Created caller id journal) (later : List Event) :
    Created caller id (journal ++ later) := by
  obtain ⟨event, member, made⟩ := created
  exact ⟨event, List.mem_append_left _ member, made⟩

theorem Launchers.step {state : State} {caller : Caller Command} {op : Op} {answer : op.Answer}
    (before : Launchers state) (recorded : op.recorded = true)
    (lawful : op.Lawful service caller state) :
    Launchers (state.after caller true op answer) := by
  have journal : (state.after caller true op answer).journal =
      state.journal ++ [⟨caller, op, answer⟩] := State.after_recorded recorded
  constructor
  · intro event member request key id command launches
    rw [journal] at member ⊢
    refine Created.mono ?_ _
    rcases List.mem_append.mp member with earlier | last
    · exact before.created event earlier request key id command launches
    obtain rfl := List.mem_singleton.mp last
    have asked : ∀ target, (target == id) = true → MayLaunch caller target state.journal →
        Created caller id state.journal := by
      intro target about may
      obtain rfl := beq_iff_eq.mp about
      unfold MayLaunch at may
      have command : caller.command = .create request key := command
      simp only [command] at may
      exact may
    cases op with
    | port engine call =>
        cases call with
        | prepare target => exact asked target launches lawful.2
        | start target => exact asked target launches lawful.2.1
        | verifyServedModel | inspect | stop => cases launches
    | utcNow | uuid4 | store | activity => cases launches
  · rw [journal]
    refine List.pairwise_append.mpr ⟨before.once, List.pairwise_singleton _ _, ?_⟩
    intro earlier member last isLast starts starts' same
    obtain rfl := List.mem_singleton.mp isLast
    cases op with
    | port engine call =>
        cases call with
        | start target =>
            rw [lawful.2.2 earlier member same] at starts
            cases starts
        | prepare | verifyServedModel | inspect | stop => cases starts'
    | utcNow | uuid4 | store | activity => cases starts'

theorem Evolves.launchers {state : State}
    (evolves : Evolves environment service State.initial state) : Launchers state :=
  (evolves.invariant Launchers
    (fun recorded _ before _ _ lawful => before.step recorded lawful)
    initial_consistent ⟨fun _ member => absurd member List.not_mem_nil, .nil⟩).2

theorem Exchange.starts_launches {exchange : Exchange} (starts : exchange.starts = true) :
    ∃ id, exchange.launches id = true := by
  obtain ⟨engine, call, answer⟩ := exchange
  cases call with
  | start target => exact ⟨target, beq_self_eq_true target⟩
  | prepare | verifyServedModel | inspect | stop => cases starts

section Keys

variable {state : State} {first second : Caller Command} {request other : CreateDeploymentRequest}
variable {key : String} {id otherId : Uuid}

/-- A keyed create that committed left its row in the idempotency table. -/
theorem Intents.row (intents : Intents service state)
    (command : first.command = .create request (some key))
    (created : Created first id state.journal) :
    ⟨Database.createDeploymentScope, key, service.requestHash request, id⟩ ∈
      state.database.idempotency.rows := by
  obtain ⟨event, member, rfl, deployment, creates, rfl⟩ := created_iff.mp created
  obtain ⟨request', key', command', intent⟩ := intents.commanded event member deployment creates
  rw [command] at command'
  cases command'
  rw [intents.remembered]
  exact List.mem_filterMap.mpr ⟨event, member, intent⟩

theorem IdempotencyRow.clash_symm (left right : IdempotencyRow) :
    IdempotencyRow.clash left right = IdempotencyRow.clash right left := by
  simp only [IdempotencyRow.clash, Bool.beq_comm]

/-- Two creates with one key that both committed are one create. -/
theorem Intents.unique (intents : Intents service state)
    (command : first.command = .create request (some key))
    (command' : second.command = .create other (some key))
    (created : Created first id state.journal)
    (created' : Created second otherId state.journal) : id = otherId ∧ first = second := by
  have same := Relational.Table.eq_of_clash IdempotencyRow.clash_symm (intents.row command created)
    (intents.row command' created') (by simp [IdempotencyRow.clash])
  simp only [IdempotencyRow.mk.injEq, true_and] at same
  obtain rfl := same.2
  refine ⟨rfl, ?_⟩
  obtain ⟨event, member, rfl, deployment, creates, rfl⟩ := created_iff.mp created
  obtain ⟨event', member', rfl, deployment', creates', drawn⟩ := created_iff.mp created'
  have symm : Std.Symm fun earlier later : Event => ∀ first second,
      earlier.created? = some first → later.created? = some second →
        earlier.caller ≠ later.caller ∧ first.id ≠ second.id :=
    ⟨fun _ _ apart second first creates creates' =>
      ⟨(apart first second creates' creates).1.symm, (apart first second creates' creates).2.symm⟩⟩
  by_contra different
  have apart := intents.apart.forall member member' (fun same => different (same ▸ rfl))
    deployment deployment' creates creates'
  exact apart.2 drawn.symm

end Keys

/-- What a create does that finds its key in `row`: it reads that deployment
under the lock and launches nothing, or it is refused and nothing happens. -/
inductive Replays (environment : Environment) (service : ReactorService) (caller : Caller Command)
    (request : CreateDeploymentRequest) (row : IdempotencyRow) (start finish : State)
    (result : Except Raised Deployment) : Prop where
  | equal {events : List Event} (same : row.requestHash = service.requestHash request)
      (reads : Alone environment service caller 0
        (Fallible.locked (service.getDeployment row.resourceId)).attempt start
        0 (.pure result) finish)
      (grown : finish.journal = start.journal ++ events)
      (unlaunched : ∀ exchange ∈ exchanges events, ∀ id, exchange.launches id = false)
  | conflict (different : row.requestHash ≠ service.requestHash request)
      (refused : result = .error (.product Database.idempotencyConflict))
      (untouched : finish = start)

section Replays

variable {state : State} {row : IdempotencyRow}

/-- Every row was committed for create-deployment, with the deployment it names. -/
theorem Intents.named (intents : Intents service state)
    (known : row ∈ state.database.idempotency.rows) :
    row.scope = Database.createDeploymentScope ∧
      ∃ event ∈ state.journal, ∃ deployment, event.created? = some deployment ∧
        deployment.id = row.resourceId ∧ event.intent? = some row := by
  rw [intents.remembered] at known
  obtain ⟨⟨caller, op, answer⟩, member, intent⟩ := List.mem_filterMap.mp known
  cases op with
  | store op =>
      cases op with
      | createIntent deployment key digest =>
          cases key with
          | none => cases intent
          | some used =>
              rcases answer with raised | (_ | replay)
              · cases intent
              · cases intent
                exact ⟨rfl, _, member, deployment, rfl, rfl, rfl⟩
              · cases intent
      | saveDeployment | savePair | getDeployment | getEndpoint | getExecutionRef
      | resolveIdempotency | appendDeploymentEvent | appendDeploymentDiagnostics => cases intent
  | utcNow | uuid4 | port | activity => cases intent

theorem Intents.find (intents : Intents service state)
    (known : row ∈ state.database.idempotency.rows) :
    state.database.findIdempotency row.key = some row := by
  have scope := (intents.named known).1
  cases found : state.database.findIdempotency row.key with
  | none =>
      have absent := List.find?_eq_none.mp found row known
      simp [scope] at absent
  | some other =>
      obtain ⟨present, wanted⟩ := Relational.Table.find?_mem found
      simp only [Bool.and_eq_true, beq_iff_eq] at wanted
      rw [Relational.Table.eq_of_clash IdempotencyRow.clash_symm present known
        (by simp [IdempotencyRow.clash, scope, wanted])]

/-- The idempotency table only grows. -/
theorem Evolves.remembers {next : State} (evolves : Evolves environment service state next)
    (consistent : Consistent state) (known : row ∈ state.database.idempotency.rows) :
    row ∈ next.database.idempotency.rows := by
  refine (evolves.invariant (fun state => row ∈ state.database.idempotency.rows) ?_ consistent
    known).2
  intro caller op state answer _ _ before _ answers _
  rw [State.idempotency_after answers]
  exact List.mem_append_left _ before

/-- A create run alone whose key is known. -/
theorem Alone.replays {finish : State} {index : Nat} {request : CreateDeploymentRequest}
    {result : Except Raised Deployment} (consistent : Consistent state)
    (intents : Intents service state) (unseen : Unseen index state)
    (known : row ∈ state.database.idempotency.rows)
    (ran : Alone environment service ⟨index, .create request (some row.key)⟩ 0
      (service.body (.create request (some row.key))).attempt state 0 (.pure result) finish) :
    Replays environment service ⟨index, .create request (some row.key)⟩ request row state finish
      result := by
  have locks : ∀ id, Command.create request (some row.key) ≠ .get id := fun _ same => by cases same
  have found := intents.find known
  by_cases same : row.requestHash = service.requestHash request
  · have resolved : state.database.resolveIdempotency (some row.key) (service.requestHash request) =
        .ok (some row.resourceId) := by
      simp only [Database.resolveIdempotency, found, same, ne_eq, not_true_eq_false, if_false]
    obtain ⟨_, event, member, deployment, creates, drawn, _⟩ := intents.named known
    obtain ⟨slot, here⟩ := intents.stored event member deployment creates
    rw [drawn] at here
    have may : ∀ journal new, Reconciles slot new →
        MayWrite ⟨index, .create request (some row.key)⟩ journal slot new :=
      fun _ _ reconciles => Or.inr reconciles
    -- The section reads the deployment, and every run of it is a run of that read.
    have held : InSection environment service ⟨index, .create request (some row.key)⟩
        (service.getDeployment row.resourceId) (fun _ _ => True) state :=
      InSection.getDeployment (.start consistent here) may fun _ _ _ _ _ _ _ => trivial
    have traced := Held.traced_locked held
    have section' : InSection environment service ⟨index, .create request (some row.key)⟩
        (service.createLocked request (some row.key)) (fun result after =>
          Alone environment service ⟨index, .create request (some row.key)⟩ 0
            (Fallible.locked (service.getDeployment row.resourceId)).attempt state
            1 (.release (.pure result)) after) state := by
      refine InSection.read_bind rfl ?_
      change InSection environment service _ (Fallible.ofExcept
        (state.database.resolveIdempotency (some row.key) (service.requestHash request)) >>= _) _
        state
      rw [resolved]
      exact InSection.bind ⟨rfl, (traced.weaken fun _ _ both => both.1).mono
        fun _ _ ended => ended.2⟩
    have reads := (Alone.locked locks section' ran).release_last
    cases Alone.create consistent unseen ran with
    | conflicting conflict =>
        rw [resolved] at conflict
        cases conflict
    | missing known' absent =>
        rw [resolved, Except.ok.injEq, Option.some.injEq] at known'
        rw [← known', here] at absent
        cases absent
    | unbound unknown | launched unknown =>
        rw [resolved] at unknown
        cases unknown
    | replayed _ _ observed inside =>
        obtain ⟨events, grown, exchanged⟩ := inside.grown
        refine .equal same reads grown fun exchange member id => ?_
        have inspects : exchange.inspects = true := by
          rw [exchanged] at member
          cases observed with
          | unchanged observes | reconciled observes => exact observes exchange member
        obtain ⟨engine, call, answer⟩ := exchange
        cases call with
        | inspect => rfl
        | prepare | start | verifyServedModel | stop => cases inspects
  · have resolved : state.database.resolveIdempotency (some row.key) (service.requestHash request) =
        .error (.product Database.idempotencyConflict) := by
      simp only [Database.resolveIdempotency, found, ne_eq, same, not_false_eq_true, if_true]
    have section' : InSection environment service ⟨index, .create request (some row.key)⟩
        (service.createLocked request (some row.key)) (fun result after =>
          result = .error (.product Database.idempotencyConflict) ∧ after = state) state := by
      refine InSection.read_bind rfl ?_
      change InSection environment service _ (Fallible.ofExcept
        (state.database.resolveIdempotency (some row.key) (service.requestHash request)) >>= _) _
        state
      rw [resolved]
      exact InSection.bind ⟨rfl, rfl, rfl⟩
    obtain ⟨refused, untouched⟩ := Alone.locked locks section' ran
    exact .conflict same refused untouched

end Replays

/-- What the tables and the journal say about keyed creates. -/
structure State.KeysCreateOnce (service : ReactorService) (state : State) : Prop where
  oneDeployment : ∀ {first second : Caller Command} {request other : CreateDeploymentRequest}
    {key : String} {id otherId : Uuid}, first.command = .create request (some key) →
    second.command = .create other (some key) → Created first id state.journal →
    Created second otherId state.journal → id = otherId ∧ first = second
  oneLaunch : ∀ key, (state.journal.filter (Event.startsFor key)).length ≤ 1
  ownLaunches : ∀ event ∈ state.journal, ∀ request key id,
    event.caller.command = .create request key →
    event.exchange?.any (Exchange.launches id) = true → Created event.caller id state.journal
  deploymentsCreated : ∀ deployment ∈ state.database.deployments.rows,
    ∃ caller request key, caller.command = .create request key ∧
      Created caller deployment.id state.journal
  together : ∀ key id,
    (∃ digest, ⟨Database.createDeploymentScope, key, digest, id⟩ ∈
      state.database.idempotency.rows) ↔
    ∃ deployment ∈ state.database.deployments.rows, deployment.id = id ∧
      ∃ caller request, caller.command = .create request (some key) ∧
        Created caller id state.journal

/-- Every later create with a known key is a replay of the row it finds. -/
structure AnswersReplays (environment : Environment) (service : ReactorService)
    (pool last : Pool (service.system environment)) : Prop where
  remembered : ∀ row ∈ (State.database pool.state).idempotency.rows,
    row ∈ (State.database last.state).idempotency.rows
  replayed : ∀ {index depth : Nat} {request : CreateDeploymentRequest} {key : String}
    {result : Except Raised Deployment}, pool.threads.length ≤ index →
    last.threads[index]? = some ⟨.create request (some key), depth, .pure result⟩ →
    ∃ start finish, Evolves environment service pool.state start ∧
      Evolves environment service finish last.state ∧
      Alone environment service ⟨index, .create request (some key)⟩ 0
        (service.body (.create request (some key))).attempt start 0 (.pure result) finish ∧
      (∀ row ∈ (State.database pool.state).idempotency.rows,
        row ∈ start.database.idempotency.rows) ∧
      ∀ row ∈ start.database.idempotency.rows, row.key = key →
        Replays environment service ⟨index, .create request (some key)⟩ request row start finish
          result

theorem Intents.keysCreateOnce {state : State} (intents : Intents service state)
    (launchers : Launchers state) : state.KeysCreateOnce service where
  oneDeployment command command' created created' :=
    intents.unique command command' created created'
  oneLaunch key := by
    -- Two starts for one key have one caller, and no caller starts twice.
    have started : ∀ event ∈ state.journal.filter (Event.startsFor key),
        event.exchange?.any Exchange.starts = true ∧ ∃ request id,
          event.caller.command = .create request (some key) ∧
          Created event.caller id state.journal := by
      intro event member
      obtain ⟨present, starts⟩ := List.mem_filter.mp member
      unfold Event.startsFor at starts
      split at starts
      · rename_i request used command
        simp only [Bool.and_eq_true, beq_iff_eq] at starts
        obtain ⟨rfl, starts⟩ := starts
        refine ⟨starts, request, ?_⟩
        cases exchanged : event.exchange? with
        | none =>
            rw [exchanged] at starts
            cases starts
        | some exchange =>
            rw [exchanged] at starts
            obtain ⟨id, launches⟩ := Exchange.starts_launches starts
            exact ⟨id, command, launchers.created event present request (some used) id command
              (by rw [exchanged]; exact launches)⟩
      · cases starts
    have apart := launchers.once.filter (Event.startsFor key)
    generalize state.journal.filter (Event.startsFor key) = starts at started apart
    cases starts with
    | nil => exact Nat.zero_le _
    | cons first rest =>
        cases rest with
        | nil => exact Nat.le_refl _
        | cons second rest =>
            obtain ⟨starts, request, id, command, created⟩ := started first (by simp)
            obtain ⟨starts', other, otherId, command', created'⟩ := started second (by simp)
            have different := (List.pairwise_cons.mp apart).1 second (by simp) starts starts'
            exact absurd (intents.unique command command' created created').2 different
  ownLaunches := launchers.created
  deploymentsCreated deployment stored := by
    obtain ⟨slot, here, _⟩ := Database.slot_of_mem stored
    obtain ⟨event, member, made, creates, drawn⟩ := intents.created _ slot here
    obtain ⟨request, key, command, _⟩ := intents.commanded event member made creates
    exact ⟨event.caller, request, key, command,
      created_iff.mpr ⟨event, member, rfl, made, creates, drawn⟩⟩
  together key id := by
    constructor
    · rintro ⟨digest, known⟩
      obtain ⟨_, event, member, deployment, creates, drawn, intent⟩ := intents.named known
      obtain ⟨request, key', command, intent'⟩ := intents.commanded event member deployment creates
      rw [intent] at intent'
      obtain ⟨slot, here⟩ := intents.stored event member deployment creates
      obtain ⟨found, stored, _⟩ := Database.slot_eq_some here
      cases key' with
      | none => cases intent'
      | some used =>
          cases intent'
          exact ⟨slot.deployment, (Database.getDeployment_mem found).1, stored, event.caller,
            request, command, created_iff.mpr ⟨event, member, rfl, deployment, creates, rfl⟩⟩
    · rintro ⟨deployment, stored, rfl, caller, request, command, created⟩
      exact ⟨_, intents.row command created⟩

/-- A key creates one deployment, launches it once, and is replayed ever after. -/
theorem create_deployment_idempotent (environment : Environment) (service : ReactorService)
    {pool last : Pool (service.system environment)} (reached : Reached environment service pool)
    (run : Relation.ReflTransGen Step pool last) :
    (State.KeysCreateOnce service pool.state) ∧ AnswersReplays environment service pool last := by
  have start : Reached environment service (Pool.initial State.initial) := .refl
  have evolves := (start.evolves reached).1
  refine ⟨evolves.intents.keysCreateOnce evolves.launchers, fun row known =>
    (reached.evolves run).1.remembers reached.consistent known, ?_⟩
  intro index depth request key result started found
  obtain ⟨finish, later, finished⟩ := reached.finished run started found
  rcases finished with ⟨id, command⟩ | ⟨start, path, serial, unseen, ran⟩
  · cases command
  · refine ⟨start, finish, path, later, ran, fun row known =>
      path.remembers reached.consistent known, ?_⟩
    rintro row known rfl
    exact Alone.replays serial.consistent serial.evolves.intents unseen known ran

/-- A keyed create, run to its end. -/
def Sample.keyed : Pool (Sample.service.system .unrestricted) :=
  rehearse Sample.replies.engines (fun _ _ => trivial) 40 (.create Sample.request (some "key"))
    (Pool.initial State.initial)

/-- The same create again. -/
def Sample.repeated : Pool (Sample.service.system .unrestricted) :=
  rehearse Sample.replies.engines (fun _ _ => trivial) 40 (.create Sample.request (some "key"))
    Sample.keyed

theorem create_deployment_idempotent_repeated :
    (State.KeysCreateOnce Sample.service Sample.keyed.state) ∧
      AnswersReplays .unrestricted Sample.service Sample.keyed Sample.repeated :=
  create_deployment_idempotent .unrestricted Sample.service
    (rehearse_reaches (Pool.initial_quiescent _)) (rehearse_reaches (by decide))

end CyreneReactor
