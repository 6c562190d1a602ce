import CyreneReactor.Guarantees.LaunchVerdicts
import CyreneReactor.Lifecycle.Stages

namespace CyreneReactor

open Interaction ReactorService

/-! The event stream of a deployment, over every run.

The events are numbered from one and follow the lifecycle as far as every launch was
decided: it reached its verdict, or the engine refused to prepare it.
-/

variable {environment : Environment} {service : ReactorService}

/-- The preparation of this deployment was refused. -/
def Exchange.refuses (id : Uuid) : Exchange → Bool
  | ⟨_, .prepare deploymentId, .error _⟩ => deploymentId == id
  | _ => false

/-- The launch reaches its verdict, or its preparation was refused. -/
def Decided (id : Uuid) (calls : List Exchange) : Prop :=
  Concludes calls ∨ ∃ exchange ∈ calls, exchange.refuses id = true

/-- The calls a thread made. -/
def State.callsOf (state : State) (index : Nat) : List Exchange :=
  exchanges (state.journal.filter fun event => event.caller.index == index)

/-- Every launch of the deployment is decided. -/
def LaunchesDecided (state : State) (id : Uuid) : Prop :=
  ∀ event ∈ state.journal, event.beginsLaunch id = true →
    Decided id (state.callsOf event.caller.index)

/-- Every launch is decided, but the one that may be under way: its thread was the last to act. -/
def EarlierDecided (state : State) (id : Uuid) : Prop :=
  ∀ event ∈ state.journal, event.beginsLaunch id = true →
    (∀ last, state.journal.getLast? = some last → last.caller.index ≠ event.caller.index) →
    Decided id (state.callsOf event.caller.index)

theorem Event.marks_of_beginsLaunch {event : Event} {id : Uuid}
    (begins : event.beginsLaunch id = true) :
    ∃ observed, event.op.mark event.answer id = some (.saved observed) := by
  obtain ⟨caller, op, answer⟩ := event
  cases op with
  | utcNow | uuid4 | port | activity => cases begins
  | store op =>
      cases op with
      | saveDeployment deployment =>
          simp only [beginsLaunch, Bool.and_eq_true, beq_iff_eq] at begins
          exact ⟨_, if_pos begins.1⟩
      | createIntent deployment key digest =>
          rcases answer with raised | _ | replay
          · cases begins
          · exact ⟨_, if_pos (beq_iff_eq.mp begins)⟩
          · cases begins
      | savePair | getDeployment | getEndpoint | getExecutionRef | resolveIdempotency
      | appendDeploymentEvent | appendDeploymentDiagnostics => cases begins

theorem Event.beginsLaunch_of_mark {event : Event} {id : Uuid}
    (marks : event.op.mark event.answer id = some (.saved .starting)) :
    event.beginsLaunch id = true := by
  obtain ⟨caller, op, answer⟩ := event
  cases op with
  | utcNow | uuid4 => cases marks
  | activity call =>
      simp only [Op.mark] at marks
      split at marks
      · cases call <;> cases marks
      · cases marks
  | port engine call =>
      cases call with
      | prepare =>
          rcases answer with raised | prepared <;>
            simp only [Op.mark, PortCall.mark, Option.bind_some] at marks <;>
            split at marks <;> cases marks
      | start =>
          simp only [Op.mark, PortCall.mark, Option.bind_some] at marks
          split at marks <;> cases marks
      | verifyServedModel | inspect | stop => cases marks
  | store op =>
      cases op with
      | saveDeployment deployment =>
          simp only [Op.mark, StoreOp.mark, Option.bind_some] at marks
          split at marks
          · rename_i same
            simp only [Option.some.injEq, Mark.saved.injEq] at marks
            simp [beginsLaunch, same, marks]
          · cases marks
      | createIntent deployment key digest =>
          rcases answer with raised | _ | replay
          · cases marks
          · simp only [Op.mark, StoreOp.mark, Option.bind_some] at marks
            split at marks
            · rename_i same
              exact beq_iff_eq.mpr same
            · cases marks
          · cases marks
      | savePair | appendDeploymentEvent =>
          simp only [Op.mark, StoreOp.mark, Option.bind_some] at marks
          split at marks <;> cases marks
      | getDeployment | getEndpoint | getExecutionRef | resolveIdempotency
      | appendDeploymentDiagnostics => cases marks

theorem Event.mark_refused {event : Event} {id : Uuid} :
    event.op.mark event.answer id = some .refused ↔
      ∃ exchange, event.exchange? = some exchange ∧ exchange.refuses id = true := by
  obtain ⟨caller, op, answer⟩ := event
  cases op with
  | utcNow | uuid4 => simp [Op.mark, exchange?]
  | activity call =>
      simp only [Op.mark, exchange?]
      cases call <;> split <;> simp [ActivityCall.report]
  | port engine call =>
      simp only [exchange?, Option.some.injEq, exists_eq_left']
      cases call with
      | prepare deploymentId =>
          rcases answer with raised | prepared
          · by_cases same : deploymentId = id <;>
              simp [Op.mark, PortCall.mark, Exchange.refuses, same]
          · by_cases same : deploymentId = id <;>
              simp [Op.mark, PortCall.mark, Exchange.refuses, same]
      | start deploymentId =>
          by_cases same : deploymentId = id <;>
            simp [Op.mark, PortCall.mark, Exchange.refuses, same]
      | verifyServedModel | inspect | stop => simp [Op.mark, PortCall.mark, Exchange.refuses]
  | store op =>
      simp only [exchange?, reduceCtorEq, false_and, exists_false, iff_false]
      cases op with
      | saveDeployment deployment | savePair deployment | appendDeploymentEvent =>
          simp only [Op.mark, StoreOp.mark, Option.bind_some]
          split <;> simp
      | createIntent =>
          rcases answer with raised | _ | replay
          · simp [Op.mark, StoreOp.mark]
          · simp only [Op.mark, StoreOp.mark, Option.bind_some]
            split <;> simp
          · simp [Op.mark, StoreOp.mark]
      | getDeployment | getEndpoint | getExecutionRef | resolveIdempotency
      | appendDeploymentDiagnostics => simp [Op.mark, StoreOp.mark]

/-- A launch begins with STARTING. -/
theorem Evolves.launchMarks {state : State} {id : Uuid}
    (evolves : Evolves environment service State.initial state) :
    ∀ event ∈ state.journal, event.beginsLaunch id = true →
      event.op.mark event.answer id = some (.saved .starting) := by
  refine (evolves.invariant (fun state => ∀ event ∈ state.journal, event.beginsLaunch id = true →
    event.op.mark event.answer id = some (.saved .starting)) ?_ initial_consistent
    fun _ member => absurd member List.not_mem_nil).2
  intro caller op state answer recorded consistent before _ answers lawful event member begins
  rw [State.after_recorded recorded] at member
  rcases List.mem_append.mp member with earlier | last
  · exact before event earlier begins
  · obtain rfl := List.mem_singleton.mp last
    obtain ⟨observed, marks⟩ := Event.marks_of_beginsLaunch begins
    obtain ⟨slot, here, starting⟩ := (lawful.begun consistent answers begins).starting
    -- What the mark says is what is stored, and that is STARTING.
    have stored : (state.after caller true op answer).observed id =
        (op.mark answer id).elim (state.observed id) (Mark.stores (state.observed id)) :=
      State.observed_after answers id
    rw [marks, State.observed, (Database.slot_eq_some here).1, Option.elim_some] at stored
    have same : slot.deployment.observedState = observed := Option.some.inj stored
    rw [marks, ← same, starting]

section Sections

variable {caller : Caller Command} {state next : State} {body : Service Deployment} {id : Uuid}
variable {events : List Event} {last : Place}

/-- What a thread records alone is its own. -/
theorem Runs.grown {α : Type} {caller : Caller (service.system environment).Command}
    {depth depth' : Nat} {program rest : Program (service.system environment).signature α}
    {state next : (service.system environment).State}
    (ran : Runs caller depth program state depth' rest next) :
    ∃ events, State.journal next = State.journal state ++ events ∧
      ∀ event ∈ events, event.caller = caller := by
  induction ran with
  | refl => exact ⟨[], (List.append_nil _).symm, fun _ member => absurd member List.not_mem_nil⟩
  | acquire _ ih | release _ ih => exact ih
  | @call depth op next answer state middle _ _ _ does _ ih =>
      obtain ⟨later, grown, mine⟩ := ih
      obtain ⟨_, _, rfl⟩ := does
      cases made : decide (0 < depth) && Op.recorded op with
      | false =>
          refine ⟨later, ?_, mine⟩
          rw [grown]
          simp only [State.after, made, Bool.false_eq_true, if_false]
      | true =>
          refine ⟨⟨caller, op, answer⟩ :: later, ?_, fun event member => ?_⟩
          · rw [grown]
            simp only [State.after, made, if_true, List.append_assoc, List.singleton_append]
          · rcases List.mem_cons.mp member with rfl | after
            · rfl
            · exact mine event after

/-- The marks these events left under the deployment. -/
def marksOf (id : Uuid) (events : List Event) : List Mark :=
  events.filterMap fun event => event.op.mark event.answer id

/-- A section that came from `state` to `next` recorded these events and stands here. -/
structure Passed (service : ReactorService) (caller : Caller Command) (state next : State)
    (id : Uuid) (events : List Event) (last : Place) : Prop where
  grown : next.journal = state.journal ++ events
  mine : ∀ event ∈ events, event.caller = caller
  followed : follow (Place.next service.tracked) (state.found id) (marksOf id events) = some last

theorem Passed.marks (passed : Passed service caller state next id events last) :
    next.marks id = state.marks id ++ marksOf id events := by
  rw [State.marks, passed.grown, List.filterMap_append]
  rfl

theorem passed_of_marks {own : List Mark}
    (ran : ∃ events, next.journal = state.journal ++ events ∧ ∀ event ∈ events, event.caller = caller)
    (marked : next.marks id = state.marks id ++ own)
    (followed : follow (Place.next service.tracked) (state.found id) own = some last) :
    ∃ events, Passed service caller state next id events last := by
  obtain ⟨events, grown, mine⟩ := ran
  refine ⟨events, grown, mine, ?_⟩
  have same : own = marksOf id events := by
    rw [State.marks, grown, List.filterMap_append] at marked
    exact (List.append_cancel_left marked).symm
  exact same ▸ followed

theorem Section.passes {depth : Nat} {rest : Program productSignature (Except Raised Deployment)}
    (section' : Section service state caller body) (consistent : Consistent state)
    (ran : Alone environment service caller 0 (Fallible.locked body).attempt state depth rest next)
    (id : Uuid) : ∃ events last, Passed service caller state next id events last := by
  obtain ⟨own, last, marked, followed⟩ := section'.goes consistent ran id
  obtain ⟨events, passed⟩ := passed_of_marks (Runs.grown ran) marked followed
  exact ⟨events, last, passed⟩

/-- A section that is over, and what it left. -/
structure Over (environment : Environment) (service : ReactorService) (caller : Caller Command)
    (state next : State) (id : Uuid) (events : List Event) (last : Place) : Prop
    extends Passed service caller state next id events last where
  ended : last = state.found id ∨ last.Ends caller.command
  holds : last.Holds (next.observed id)
  decided : (∃ event ∈ events, event.beginsLaunch id = true) → caller.command.launches →
    (next.observed id = some .starting ↔ ¬Concludes (exchanges events))

/-- Every section that is over left what its last place says. -/
theorem Section.closed {result : Except Raised Deployment}
    (section' : Section service state caller body) (serial : Serial environment service state)
    (unseen : Unseen caller.index state)
    (ran : Alone environment service caller 0 (Fallible.locked body).attempt state
      0 (.pure result) next) (id : Uuid) :
    ∃ events last, Over environment service caller state next id events last := by
  have later : Serial environment service next := serial.next unseen section' ran
  obtain ⟨own, last, went⟩ := section'.went serial.consistent ran id
  obtain ⟨events, passed⟩ := passed_of_marks (Runs.grown ran) went.grown went.followed
  refine ⟨events, last, passed, went.ended,
    went.holds (serial.evolves.observed id) (later.evolves.observed id), fun begun launching => ?_⟩
  obtain ⟨event, member, begins⟩ := begun
  cases section' with
  | reconcile command =>
      rw [command] at launching
      exact launching.elim
  | command locks =>
      obtain ⟨index, command⟩ := caller
      have completed : Completed environment service index command result state next events := by
        refine ⟨serial, unseen, ?_, passed.grown⟩
        rw [service.body_eq_locked locks]
        exact ran
      obtain ⟨slot, here, launched⟩ := completed.launched launching member begins
      have stored : next.observed id = some slot.deployment.observedState := by
        rw [State.observed, (Database.slot_eq_some here).1]
        rfl
      rw [stored, Option.some.injEq]
      exact launched.settled.2

theorem mem_marksOf {mark : Mark} :
    mark ∈ marksOf id events ↔ ∃ event ∈ events, event.op.mark event.answer id = some mark :=
  List.mem_filterMap

/-- A section that is over ends in a launch where one of its events began one. -/
theorem Over.launching (closed : Over environment service caller state next id events last)
    (serial : Serial environment service next) :
    last.launching = true ↔ ∃ event ∈ events, event.beginsLaunch id = true := by
  have launching := Place.launching_of_follow closed.followed
  rw [launching]
  simp only [State.found, Place.launching, Bool.false_or, decide_eq_true_eq, mem_marksOf]
  constructor
  · rintro ⟨event, member, marks⟩
    exact ⟨event, member, Event.beginsLaunch_of_mark marks⟩
  · rintro ⟨event, member, begins⟩
    refine ⟨event, member, serial.evolves.launchMarks event ?_ begins⟩
    rw [closed.grown]
    exact List.mem_append_right _ member

/-- It stands at the refusal where the preparation was refused. -/
theorem Passed.refused (passed : Passed service caller state next id events last) :
    last = .refused ↔ ∃ exchange ∈ exchanges events, exchange.refuses id = true := by
  constructor
  · rintro rfl
    rcases follow_arrives passed.followed with same | ⟨mark, member, before, stepped⟩
    · cases same
    · obtain rfl : mark = .refused := by
        cases Place.step_of_next stepped
        rfl
      obtain ⟨event, member, marks⟩ := mem_marksOf.mp member
      obtain ⟨exchange, calls, refuses⟩ := Event.mark_refused.mp marks
      exact ⟨exchange, List.mem_filterMap.mpr ⟨event, member, calls⟩, refuses⟩
  · rintro ⟨exchange, member, refuses⟩
    obtain ⟨event, member, calls⟩ := List.mem_filterMap.mp member
    have marked : Mark.refused ∈ marksOf id events :=
      mem_marksOf.mpr ⟨event, member, Event.mark_refused.mpr ⟨exchange, calls, refuses⟩⟩
    obtain ⟨before, middle, rest, stepped, later⟩ := follow_through passed.followed marked
    obtain rfl : middle = .refused := by
      cases Place.step_of_next stepped with
      | refused => rfl
      | failed _ _ fails | failedAtOnce _ _ fails => rcases fails with fails | fails <;> cases fails
      | releasing _ stops | freed _ stops => rcases stops with stops | stops <;> cases stops
    exact (follow_stuck (fun mark => by cases mark <;> rfl) later).1

theorem Place.Ends.launches {command : Command} {place : Place} (ended : place.Ends command)
    (launching : place.launching = true) : command.launches ∧ place.Launched := by
  cases command with
  | create =>
      rcases ended with rfl | launched
      · cases launching
      · exact ⟨trivial, launched⟩
  | get =>
      obtain rfl : place = .reconciled := ended
      cases launching
  | stop => rcases ended with rfl | rfl <;> cases launching
  | restart =>
      rcases ended with rfl | launched
      · cases launching
      · exact ⟨trivial, launched⟩

theorem Over.rests (closed : Over environment service caller state next id events last) :
    last.Settled ∨ last.Left := by
  rcases closed.ended with rfl | ended
  · exact .inl trivial
  · exact ended.rests

/-- A launch is left where nothing decided it. -/
theorem Over.left_iff (closed : Over environment service caller state next id events last)
    (serial : Serial environment service next) :
    last.Left ↔ (∃ event ∈ events, event.beginsLaunch id = true) ∧
      ¬Decided id (exchanges events) := by
  have launches : last.launching = true → caller.command.launches ∧ last.Launched := by
    intro launching
    rcases closed.ended with rfl | ended
    · cases launching
    · exact ended.launches launching
  constructor
  · intro left
    have launching : last.launching = true := by
      cases last <;> first | rfl | exact left.elim
    have begun := (closed.launching serial).mp launching
    refine ⟨begun, ?_⟩
    rintro (concludes | refuses)
    · exact (closed.decided begun (launches launching).1).mp (left.holds closed.holds) concludes
    · rw [closed.refused.mpr refuses] at left
      exact left
  · rintro ⟨begun, undecided⟩
    have launching := (closed.launching serial).mpr begun
    have observed : next.observed id = some .starting :=
      (closed.decided begun (launches launching).1).mpr fun concludes => undecided (.inl concludes)
    have held := closed.holds
    rw [observed] at held
    have prepared : last ≠ .refused := fun refused => undecided (.inr (closed.refused.mp refused))
    have launched := (launches launching).2
    cases last with
    | loading | bare | offered | pending | attempted | probing => trivial
    | refused => exact absurd rfl prepared
    | ready | failed => cases held
    | outside | reconciled | admitted | starting | queued | dispatching | readying | verified
    | failing | settled | canceling | stopping | stopped | releasing | freed | released =>
        exact launched.elim

theorem Passed.callsOf_self (passed : Passed service caller state next id events last)
    (unseen : Unseen caller.index state) : next.callsOf caller.index = exchanges events := by
  have before : state.journal.filter (fun event => event.caller.index == caller.index) = [] := by
    rw [List.filter_eq_nil_iff]
    intro event member same
    exact unseen event member (beq_iff_eq.mp same)
  have after : events.filter (fun event => event.caller.index == caller.index) = events := by
    rw [List.filter_eq_self]
    intro event member
    rw [passed.mine event member]
    exact beq_self_eq_true caller.index
  rw [State.callsOf, passed.grown, List.filter_append, before, after, List.nil_append]

theorem Passed.callsOf_other (passed : Passed service caller state next id events last) {index : Nat}
    (different : index ≠ caller.index) : next.callsOf index = state.callsOf index := by
  have after : events.filter (fun event => event.caller.index == index) = [] := by
    rw [List.filter_eq_nil_iff]
    intro event member same
    rw [passed.mine event member] at same
    exact different (beq_iff_eq.mp same).symm
  rw [State.callsOf, passed.grown, List.filter_append, after, List.append_nil]
  rfl

theorem Passed.decided_iff (passed : Passed service caller state next id events last)
    (unseen : Unseen caller.index state) :
    LaunchesDecided next id ↔ LaunchesDecided state id ∧
      ((∃ event ∈ events, event.beginsLaunch id = true) → Decided id (exchanges events)) := by
  constructor
  · intro decided
    refine ⟨fun event member begins => ?_, ?_⟩
    · rw [← passed.callsOf_other (unseen event member)]
      apply decided event _ begins
      rw [passed.grown]
      exact List.mem_append_left _ member
    · rintro ⟨event, member, begins⟩
      rw [← passed.callsOf_self unseen, ← passed.mine event member]
      apply decided event _ begins
      rw [passed.grown]
      exact List.mem_append_right _ member
  · rintro ⟨before, own⟩ event member begins
    rw [passed.grown] at member
    rcases List.mem_append.mp member with earlier | made
    · rw [passed.callsOf_other (unseen event earlier)]
      exact before event earlier begins
    · rw [passed.mine event made, passed.callsOf_self unseen]
      exact own ⟨event, made, begins⟩

/-- With the lock free the lifecycle is complete, or a launch was left. -/
inductive Streams (state : State) (id : Uuid) : Prop where
  | complete {stage : Stage} (decided : LaunchesDecided state id)
      (followed : follow Stage.next .fresh (state.marks id) = some stage)
      (complete : stage.Complete) (agrees : stage.Agrees (state.observed id))
  | lost (undecided : ¬LaunchesDecided state id)
      (lost : (state.found id).Lost (follow Stage.next .fresh (state.marks id)))

theorem Passed.tells {stage : Stage} (passed : Passed service caller state next id events last)
    (followed : follow Stage.next .fresh (state.marks id) = some stage)
    (complete : stage.Complete) (agrees : stage.Agrees (state.observed id)) :
    ∃ stage', follow Stage.next .fresh (next.marks id) = some stage' ∧ last.Tells stage' := by
  have outside : (state.found id).Tells stage := ⟨complete, agrees⟩
  obtain ⟨stage', later, tells⟩ := outside.follow passed.followed
  refine ⟨stage', ?_, tells⟩
  rw [passed.marks, follow_append, followed]
  exact later

theorem Over.streams (closed : Over environment service caller state next id events last)
    (serial : Serial environment service next) (unseen : Unseen caller.index state)
    (before : Streams state id) : Streams next id := by
  cases before with
  | complete decided followed complete agrees =>
      obtain ⟨stage, later, tells⟩ := closed.tells followed complete agrees
      rcases closed.rests with settled | left
      · obtain ⟨complete', agrees'⟩ := tells.agrees settled closed.holds
        refine .complete ((closed.decided_iff unseen).mpr ⟨decided, fun begun => ?_⟩) later complete'
          agrees'
        by_contra undecided
        have left := (closed.left_iff serial).mpr ⟨begun, undecided⟩
        cases last <;> first | exact left.elim | exact settled.elim
      · obtain ⟨begun, undecided⟩ := (closed.left_iff serial).mp left
        refine .lost (fun decided' => undecided (((closed.decided_iff unseen).mp decided').2 begun)) ?_
        have starting := left.holds closed.holds
        rw [later, State.found_eq, starting]
        exact .inr ⟨(left.tells tells).imp (congrArg some) (congrArg some), .inl rfl⟩
  | lost undecided lost =>
      refine .lost (fun decided' => undecided ((closed.decided_iff unseen).mp decided').1) ?_
      have later := lost.follow closed.followed
      rw [← follow_append, ← closed.marks] at later
      have stopped := closed.rests
      rcases later with none | ⟨incomplete, same | same | same⟩
      · exact .inl none
      · have starting := closed.holds
        rw [same] at starting
        rw [State.found_eq, show next.observed id = some .starting from starting]
        exact .inr ⟨incomplete, .inl rfl⟩
      · rw [same] at stopped
        exact (or_self_iff.mp stopped).elim
      · rw [same] at stopped
        exact (or_self_iff.mp stopped).elim

theorem Serial.streams (serial : Serial environment service state) (id : Uuid) :
    Streams state id := by
  induction serial with
  | initial =>
      have none : LaunchesDecided State.initial id := fun _ member => absurd member List.not_mem_nil
      exact .complete none rfl trivial rfl
  | next before unseen section' ran ih =>
      obtain ⟨events, last, closed⟩ := section'.closed before unseen ran id
      exact closed.streams (before.next unseen section' ran) unseen ih

/-- As far as the earlier launches are decided, the marks follow the lifecycle. -/
theorem Passed.word (passed : Passed service caller state next id events last)
    (unseen : Unseen caller.index state) (before : Streams state id)
    (word : EarlierDecided state id → ∃ stage, follow Stage.next .fresh (state.marks id) = some stage)
    (decided : EarlierDecided next id) :
    ∃ stage, follow Stage.next .fresh (next.marks id) = some stage := by
  rcases List.eq_nil_or_concat events with rfl | ⟨earlier, final, rfl⟩
  · have unmoved : next.journal = state.journal := by rw [passed.grown, List.append_nil]
    have marks : next.marks id = state.marks id := by rw [State.marks, unmoved]; rfl
    rw [marks]
    apply word
    intro event member begins others
    have here := decided event (unmoved ▸ member) begins (unmoved ▸ others)
    rw [State.callsOf, unmoved] at here
    exact here
  · have mine := passed.mine final (by simp)
    have reached : next.journal.getLast? = some final := by
      rw [passed.grown, List.concat_eq_append, ← List.append_assoc, List.getLast?_concat]
    have rest : LaunchesDecided state id := by
      intro event member begins
      rw [← passed.callsOf_other (unseen event member)]
      apply decided event _ begins
      · intro last' same
        rw [reached, Option.some.injEq] at same
        rw [← same, mine]
        exact fun other => unseen event member other.symm
      · rw [passed.grown]
        exact List.mem_append_left _ member
    cases before with
    | complete _ followed complete agrees =>
        obtain ⟨stage, later, _⟩ := passed.tells followed complete agrees
        exact ⟨stage, later⟩
    | lost undecided => exact absurd rest undecided

theorem Serial.word (serial : Serial environment service state)
    (decided : EarlierDecided state id) :
    ∃ stage, follow Stage.next .fresh (state.marks id) = some stage := by
  induction serial with
  | initial => exact ⟨.fresh, rfl⟩
  | next before unseen section' ran ih =>
      obtain ⟨events, last, passed⟩ := section'.passes before.consistent ran id
      exact passed.word unseen (before.streams id) ih decided

theorem Underway.word (underway : Underway environment service state)
    (decided : EarlierDecided state id) :
    ∃ stage, follow Stage.next .fresh (state.marks id) = some stage := by
  obtain ⟨start, caller, body, serial, unseen, section', depth, rest, ran⟩ := underway
  obtain ⟨events, last, passed⟩ := section'.passes serial.consistent ran id
  exact passed.word unseen (serial.streams id) (fun before => serial.word before) decided

/-- With the lock free, the last phase announced determines what is stored. -/
theorem Serial.determined (serial : Serial environment service state) (id : Uuid) :
    Determines (state.phases id).getLast? (state.observed id) := by
  induction serial with
  | initial => rfl
  | @next caller state next body result before unseen section' ran ih =>
      obtain ⟨events, last, closed⟩ := section'.closed before unseen ran id
      have began : (state.found id).Shows (state.phases id).getLast? := ih
      have shown := began.follow closed.followed
      rw [← List.getLast?_append, State.phases, ← List.filterMap_append, ← closed.marks] at shown
      exact shown.determines closed.rests closed.holds

end Sections

/-- The events a pool has persisted for a deployment. -/
structure EventStream (service : ReactorService) (pool : Pool (service.system environment))
    (id : Uuid) : Prop where
  numbered : Numbered ((State.database pool.state).eventsOf id)
  phases : ((State.database pool.state).eventsOf id).map DeploymentEvent.phase =
    State.phases pool.state id
  accepted : EarlierDecided pool.state id →
    ∃ stage, follow Stage.next .fresh (State.marks pool.state id) = some stage
  complete : pool.Quiescent →
    ((∃ stage, follow Stage.next .fresh (State.marks pool.state id) = some stage ∧
      stage.Complete) ↔ LaunchesDecided pool.state id)
  determined : pool.Quiescent →
    Determines (((State.database pool.state).eventsOf id).getLast?.map DeploymentEvent.phase)
      (State.observed pool.state id)

/-- The event stream of every deployment, in every interleaving. -/
theorem event_streams_follow_the_lifecycle (environment : Environment) (service : ReactorService)
    {pool : Pool (service.system environment)} (reached : Reached environment service pool)
    (id : Uuid) : EventStream service pool id := by
  have start : Reached environment service (Pool.initial State.initial) := .refl
  have evolves : Evolves environment service State.initial pool.state := (start.evolves reached).1
  have streamed : Streamed pool.state id := evolves.streamed id
  refine ⟨streamed.numbered, streamed.phases, fun decided => ?_, fun quiescent => ?_,
    fun quiescent => ?_⟩
  · rcases reached.underway with serial | underway
    · exact serial.word decided
    · exact underway.word decided
  · cases (reached.serial quiescent).streams id with
    | complete decided followed complete =>
        exact ⟨fun _ => decided, fun _ => ⟨_, followed, complete⟩⟩
    | lost undecided lost =>
        refine ⟨fun whole => ?_, fun decided => absurd decided undecided⟩
        obtain ⟨stage, followed, complete⟩ := whole
        rw [followed] at lost
        rcases lost with none | ⟨incomplete, _⟩
        · cases none
        · rcases incomplete with same | same <;> cases same <;> exact complete.elim
  · rw [← List.getLast?_map, streamed.phases]
    exact (reached.serial quiescent).determined id

theorem event_streams_sampled :
    EventStream Sample.service (Sample.created Sample.engine Sample.replies) Sample.firstId :=
  event_streams_follow_the_lifecycle .unrestricted Sample.service
    (rehearse_reaches (Pool.initial_quiescent _)) Sample.firstId

/-- Nothing tracks the activity of this service. -/
def Sample.untracked : ReactorService := { Sample.service with activity := none }

/-- The engine starts executions without a name. -/
def Sample.unnamed : Replies :=
  { Sample.replies with start := .ok { Sample.handle with model := some "" } }

/-- A create that was left STARTING. -/
def Sample.left : Pool (Sample.untracked.system .unrestricted) :=
  rehearse Sample.unnamed.engines (fun _ _ => trivial) 40 (.create Sample.request none)
    (Pool.initial State.initial)

/-- The stop after it. -/
def Sample.leftAndStopped : Pool (Sample.untracked.system .unrestricted) :=
  rehearse Sample.unnamed.engines (fun _ _ => trivial) 60 (.stop Sample.firstId) Sample.left

/-- PROBING is followed by STOPPING, which is no end of a launch. -/
theorem event_stream_out_of_order :
    Reached .unrestricted _ Sample.leftAndStopped ∧ Sample.leftAndStopped.Quiescent ∧
      ((State.database Sample.leftAndStopped.state).eventsOf Sample.firstId).map
        DeploymentEvent.phase = [.queued, .loading, .probing, .stopping, .released] ∧
      follow Stage.next .fresh (State.marks Sample.leftAndStopped.state Sample.firstId) = none := by
  refine ⟨?_, ?_, ?_, ?_⟩
  · have created : Reached .unrestricted _ Sample.left := rehearse_reaches (Pool.initial_quiescent _)
    have quiescent : Sample.left.Quiescent := by decide
    exact created.trans (rehearse_reaches quiescent)
  · decide
  · rfl
  · rfl

end CyreneReactor
