import CyreneReactor.Runtime.Serving

namespace CyreneReactor.Runtime.InferenceServer

open Interaction TaskScheduler

/-! What the two generators of a call have yielded, and what is between them. -/

/-- A line about the loading of the model. -/
def isLoadProgress (line : String) : Bool := "[模型加载] ".toList.isPrefixOf line.toList

theorem isLoadProgress_of_loadingText {item text : String} (shown : loadingText item = some text) :
    isLoadProgress text = true := by
  unfold loadingText at shown
  split at shown
  · cases shown
    simp [isLoadProgress]
  · cases shown

/-- Before the first item of the engine is asked for. -/
def Stage.early : Stage → Bool
  | .submitting | .polling | .checking _ | .flushing => true
  | _ => false

/-- How far the second generator is behind the first one. -/
inductive Relay.Carries (consumer : Consumer) : Relay → Prop
  | flowing {queue delivered : List String} {error : Option Thrown}
      (same : delivered ++ queue = consumer.outputs)
      (known : error = none ∨ consumer.stage = .closed error) :
      Carries consumer ⟨queue, error, false, true, delivered, none⟩
  | ended {queue delivered : List String} {error : Option Thrown}
      (same : delivered ++ queue = consumer.outputs ++ [sentinel]) (marked : sentinel ∈ queue)
      (stage : consumer.stage = .closed error) :
      Carries consumer ⟨queue, error, true, true, delivered, none⟩
  | read {error : Option Thrown} (stage : consumer.stage = .closed error) :
      Carries consumer ⟨[], error, true, false, consumer.outputs, none⟩
  | closed {error : Option Thrown} (stage : consumer.stage = .closed error) :
      Carries consumer ⟨[], error, true, false, consumer.outputs,
        some (if error.isSome then some (RuntimeError "Inference failed") else none)⟩

/-- The order in which a call yields, to its own caller and through the relay. -/
structure Consumer.Orderly (consumer : Consumer) : Prop where
  empty : consumer.stage.early = true → consumer.delivered = []
  lines : ∀ line ∈ consumer.announced, isLoadProgress line = true
  carries : ∀ relay, consumer.relay = some relay → relay.Carries consumer

section Consumer

variable {consumer next : Consumer} {item : String}

theorem orderly_opened (modelLoaded asynchronous : Bool) :
    Consumer.Orderly ⟨modelLoaded, .submitting, [], [],
      if asynchronous then some .opened else none⟩ where
  empty := fun _ => rfl
  lines := by simp
  carries := by
    intro relay own
    cases asynchronous with
    | false => simp at own
    | true =>
        simp only [if_true, Option.some.injEq] at own
        subst own
        exact .flowing rfl (.inl rfl)

/-- Nothing is yielded; the call stands elsewhere. -/
theorem Consumer.Orderly.move (orderly : consumer.Orderly) {stage : Stage}
    (unclosed : ∀ raised, consumer.stage ≠ .closed raised)
    (early : stage.early = true → consumer.stage.early = true) :
    (consumer.atStage stage).Orderly where
  empty := fun still => orderly.empty (early still)
  lines := orderly.lines
  carries := by
    intro relay own
    cases orderly.carries relay own with
    | flowing same known =>
        rcases known with rfl | closed
        · exact .flowing same (.inl rfl)
        · exact absurd closed (unclosed _)
    | ended _ _ closed | read closed | closed closed => exact absurd closed (unclosed _)

/-- An item is yielded, and relayed. -/
theorem carries_of_relayed (orderly : consumer.Orderly)
    (unclosed : ∀ raised, consumer.stage ≠ .closed raised)
    (outputs : next.outputs = consumer.outputs ++ [item])
    (relayed : next.relay = consumer.relayed item) :
    ∀ relay, next.relay = some relay → relay.Carries next := by
  intro relay own
  rw [relayed, Consumer.relayed, Option.map_eq_some_iff] at own
  obtain ⟨earlier, owned, rfl⟩ := own
  cases orderly.carries earlier owned with
  | flowing same known =>
      rcases known with rfl | closed
      · exact .flowing (by rw [outputs, ← same, List.append_assoc]) (.inl rfl)
      · exact absurd closed (unclosed _)
  | ended _ _ closed | read closed | closed closed => exact absurd closed (unclosed _)

theorem Consumer.Orderly.announce (orderly : consumer.Orderly)
    (early : consumer.stage.early = true) (line : isLoadProgress item = true) :
    (consumer.announce item).Orderly where
  empty := orderly.empty
  lines := by
    intro other member
    rcases List.mem_append.mp member with before | last
    · exact orderly.lines other before
    · rw [List.mem_singleton.mp last]
      exact line
  carries := carries_of_relayed orderly
    (fun raised closed => by rw [closed] at early; cases early)
    (by simp [Consumer.outputs, Consumer.announce, orderly.empty early]) rfl

theorem Consumer.Orderly.showProgress (orderly : consumer.Orderly)
    (early : consumer.stage.early = true) : (consumer.showProgress item).Orderly := by
  unfold Consumer.showProgress
  split
  · rename_i text shown
    exact orderly.announce early (isLoadProgress_of_loadingText shown)
  · exact orderly

theorem Consumer.Orderly.deliver (orderly : consumer.Orderly)
    (stage : consumer.stage = .reading) : (consumer.deliver item).Orderly where
  empty := fun early => by simp [Consumer.deliver, stage, Stage.early] at early
  lines := orderly.lines
  carries := carries_of_relayed orderly (fun raised closed => by rw [stage] at closed; cases closed)
    (by simp [Consumer.outputs, Consumer.deliver]) rfl

theorem Consumer.Orderly.consume (orderly : consumer.Orderly) {submit : Submit}
    {channel rest : Channel} (consumed : consume submit consumer channel = some (next, rest)) :
    next.Orderly := by
  cases consumed_of_consume consumed with
  | start stage | reject stage | idle stage | giveUp stage | loaded stage | checkFailed stage
  | flushed stage =>
      exact orderly.move (by simp [stage]) (by simp [stage, Stage.early])
  | await stage =>
      have announced := orderly.announce (by rw [stage]; rfl)
        (show isLoadProgress loadingAnnounced = true by decide)
      exact announced.move (by simp [stage]) (by simp [stage, Stage.early])
  | @loading item _ stage =>
      have shown : (consumer.showProgress item).Orderly := orderly.showProgress (by rw [stage]; rfl)
      exact shown.move (by simp [stage]) (by simp [stage, Stage.early])
  | check stage =>
      exact orderly.move (by simp [stage]) (by simp [stage, Stage.early])
  | flush stage => exact orderly.showProgress (by rw [stage]; rfl)
  | deliver stage => exact orderly.deliver stage
  | finish stage | close stage | closeFailed stage =>
      exact orderly.move (by simp [stage]) (by simp [Stage.early])

variable {relay after : Relay} {raised : Option Thrown}

theorem Consumer.Orderly.withRelay (orderly : consumer.Orderly) (carries : after.Carries consumer) :
    Consumer.Orderly { consumer with relay := some after } where
  empty := orderly.empty
  lines := orderly.lines
  carries := by
    intro relay own
    cases own
    cases carries with
    | flowing same known => exact .flowing same known
    | ended same marked closed => exact .ended same marked closed
    | read closed => exact .read closed
    | closed closed => exact .closed closed

theorem Relay.Carries.finish (carries : relay.Carries consumer)
    (closed : consumer.stage = .closed raised) (finished : relay.finish raised = some after) :
    after.Carries consumer := by
  cases carries with
  | @flowing queue delivered error same known =>
      simp only [Relay.finish, Bool.false_eq_true, if_false] at finished
      have agrees : error = none ∨ error = raised := by
        rcases known with none | stage
        · exact .inl none
        · exact .inr (by simpa using stage.symm.trans closed)
      cases raised with
      | none =>
          obtain rfl : error = none := by simpa using agrees
          cases finished
          exact .ended (by rw [← same, List.append_assoc]) (by simp) closed
      | some thrown =>
          cases error with
          | none =>
              cases finished
              exact .flowing same (.inr closed)
          | some other =>
              obtain rfl : other = thrown := by simpa using agrees
              cases finished
              exact .ended (by rw [← same, List.append_assoc]) (by simp) closed
  | ended | read | closed => simp [Relay.finish] at finished

/-- The marker at the end of the queue is the first one in it. -/
theorem read_of_marked {taken rest outputs : List String} (clean : sentinel ∉ outputs)
    (same : taken ++ sentinel :: rest = outputs ++ [sentinel]) : taken = outputs ∧ rest = [] := by
  rcases List.eq_nil_or_concat rest with rfl | ⟨front, last, rfl⟩
  · exact ⟨List.append_cancel_right same, rfl⟩
  · have split : (taken ++ sentinel :: front) ++ [last] = outputs ++ [sentinel] := by
      simpa using same
    have before := List.append_inj_left' split rfl
    exact absurd (before ▸ by simp) clean

theorem Relay.Carries.receive (carries : relay.Carries consumer)
    (clean : sentinel ∉ consumer.outputs) (received : relay.receive = some after) :
    after.Carries consumer := by
  cases carries with
  | @flowing queue delivered error same known =>
      cases queue with
      | nil => simp [Relay.receive] at received
      | cons item rest =>
          have other : item ≠ sentinel := by
            rintro rfl
            exact clean (same ▸ by simp)
          simp only [Relay.receive, if_true, other, if_false, Option.some.injEq] at received
          subst received
          exact .flowing (by rw [← same, List.append_assoc]; rfl) known
  | @ended queue delivered error same marked closed =>
      cases queue with
      | nil => cases marked
      | cons item rest =>
          by_cases marker : item = sentinel
          · subst marker
            obtain ⟨rfl, rfl⟩ := read_of_marked clean same
            simp only [Relay.receive, if_true, Option.some.injEq] at received
            subst received
            exact .read closed
          · simp only [Relay.receive, if_true, marker, if_false, Option.some.injEq] at received
            subst received
            have later := List.mem_of_ne_of_mem (Ne.symm marker) marked
            exact .ended (by rw [← same, List.append_assoc]; rfl) later closed
  | read closed =>
      simp only [Relay.receive, Bool.false_eq_true, if_false, Option.some.injEq] at received
      subst received
      exact .closed closed
  | closed => simp [Relay.receive] at received

end Consumer

/-- Every call yields in order, and no worker dies of a task that ends well. -/
structure Orderly (state : Serving) : Prop where
  calls : ∀ consumer ∈ state.consumers, consumer.Orderly
  deaths : ∀ (place : Nat) (scheduled : ScheduledTask),
    state.scheduler.workers[place]? = some (.died scheduled) →
    ∃ (run : EngineRun) (modelLoaded : Bool) (thrown : Thrown),
      state.engineRuns[scheduled.future]? = some (some run) ∧
        (task modelLoaded run).ending = .error thrown

section Runs

variable {server : InferenceServer} {state next : Serving} {event : ServingEvent}

theorem orderly_initial : Orderly server.initial where
  calls := fun consumer member => by simp [initial] at member
  deaths := fun place scheduled found => by
    have member := List.mem_of_getElem? found
    cases (List.mem_replicate.mp member).2

/-- A worker that dies of a step of the scheduler raises what its task ends with. -/
theorem Orderly.deaths_of_stepped (orderly : Orderly state) (accounted : Accounted state)
    {event : SchedulerEvent Post Unit} {scheduler : Scheduler Post Unit (List Channel)}
    (stepped : server.taskScheduler.Stepped state.scheduler event scheduler) {place : Nat}
    {scheduled : ScheduledTask} (here : scheduler.workers[place]? = some (.died scheduled)) :
    ∃ (run : EngineRun) (modelLoaded : Bool) (thrown : Thrown),
      state.engineRuns[scheduled.future]? = some (some run) ∧
        (task modelLoaded run).ending = .error thrown := by
  rcases stepped.died_cases accounted.ledger here with before | ⟨thrown, running⟩
  · exact orderly.deaths place scheduled before
  · obtain ⟨run, known⟩ := begun_of_running accounted running
    have bound := (List.getElem?_eq_some_iff.mp known).1
    rw [accounted.runs, ← accounted.callers] at bound
    obtain ⟨_, _, _, _, follows⟩ := accounted.told_of_caller (List.getElem?_eq_getElem bound)
    simp only [Follows, known] at follows
    obtain ⟨remaining, _, runs, _⟩ := follows.ahead
    have same := runs place scheduled _ running rfl
    simp only [Job.mk.injEq] at same
    exact ⟨run, _, thrown, known, same.2.symm⟩

theorem orderly_step (stepped : Stepped server state event next) (accounted : Accounted state)
    (orderly : Orderly state) : Orderly next := by
  cases stepped with
  | refused => exact orderly
  | shutdown => exact ⟨orderly.calls, orderly.deaths⟩
  | predict =>
      refine ⟨fun consumer member => ?_, fun place scheduled here => ?_⟩
      · rcases List.mem_append.mp member with before | last
        · exact orderly.calls consumer before
        · rw [List.mem_singleton.mp last]
          exact orderly_opened _ _
      · obtain ⟨run, modelLoaded, thrown, known, ending⟩ := orderly.deaths place scheduled here
        refine ⟨run, modelLoaded, thrown, ?_, ending⟩
        rw [List.getElem?_append_left (List.getElem?_eq_some_iff.mp known).1, known]
  | schedule _ stepped =>
      exact ⟨orderly.calls, fun _ _ here => orderly.deaths_of_stepped accounted stepped here⟩
  | @begin _ begun taken _ _ here caller pending stepped =>
      refine ⟨orderly.calls, fun place scheduled there => ?_⟩
      obtain ⟨run, modelLoaded, thrown, known, ending⟩ :=
        orderly.deaths_of_stepped accounted stepped there
      have apart : taken.future ≠ scheduled.future := by
        intro same
        have bound := (List.getElem?_eq_some_iff.mp caller).1
        obtain ⟨_, _, _, _, follows⟩ := accounted.told_of_caller caller
        rw [← same] at known
        simp only [Follows, known] at follows
        exact follows.started pending
      exact ⟨run, modelLoaded, thrown, by rw [List.getElem?_set_ne apart, known], ending⟩
  | consume _ caller _ consumed =>
      refine ⟨fun consumer member => ?_, orderly.deaths⟩
      rcases List.mem_or_eq_of_mem_set member with before | rfl
      · exact orderly.calls consumer before
      · exact (orderly.calls _ (List.mem_of_getElem? caller)).consume consumed
  | relay caller closed own finished =>
      refine ⟨fun consumer member => ?_, orderly.deaths⟩
      rcases List.mem_or_eq_of_mem_set member with before | rfl
      · exact orderly.calls consumer before
      · have call := orderly.calls _ (List.mem_of_getElem? caller)
        exact call.withRelay ((call.carries _ own).finish closed finished)
  | receive caller own received =>
      refine ⟨fun consumer member => ?_, orderly.deaths⟩
      rcases List.mem_or_eq_of_mem_set member with before | rfl
      · exact orderly.calls consumer before
      · have call := orderly.calls _ (List.mem_of_getElem? caller)
        exact call.withRelay ((call.carries _ own).receive (outputs_clean accounted caller) received)

theorem orderly_of_runs {allowed : Serving → ServingEvent → Prop}
    (runs : server.machine.Runs allowed server.initial state) : Accounted state ∧ Orderly state :=
  runs.invariant (fun state => Accounted state ∧ Orderly state)
    (fun _ _ _ kept _ stepped =>
      ⟨accounted_step (stepped_of_step stepped) kept.1,
        orderly_step (stepped_of_step stepped) kept.1 kept.2⟩)
    ⟨accounted_initial, orderly_initial⟩

end Runs

end CyreneReactor.Runtime.InferenceServer
