import CyreneReactor.Lifecycle.Order
import CyreneReactor.Lifecycle.Run

namespace CyreneReactor

open Interaction ReactorService

/-! What the marks of a run say about what is stored, section after section. -/

section Sections

variable {environment : Environment} {service : ReactorService} {state next : State}
variable {caller : Caller Command} {body : Service Deployment}

/-- A section of the command went in order with this deployment. -/
structure Went (service : ReactorService) (command : Command) (state next : State) (id : Uuid)
    (own : List Mark) (last : Place) : Prop where
  grown : next.marks id = state.marks id ++ own
  followed : follow (Place.next service.tracked) (state.found id) own = some last
  ended : last = state.found id ∨ last.Ends command

/-- A section that is over went in order with every deployment. -/
theorem Section.went {result : Except Raised Deployment}
    (section' : Section service state caller body) (consistent : Consistent state)
    (ran : Alone environment service caller 0 (Fallible.locked body).attempt state
      0 (.pure result) next) (id : Uuid) :
    ∃ own last, Went service caller.command state next id own last := by
  have held : KeepsOrder environment service caller state body state :=
    Section.keepsOrder section' consistent
  obtain ⟨⟨key, last, ended, stands⟩, _⟩ := Held.locked_finishes held ran
  by_cases same : id = key
  · subst same
    obtain ⟨own, grown, followed⟩ := stands.marked.followed
    exact ⟨own, last, grown, followed, ended⟩
  · refine ⟨[], state.found id, ?_, rfl, .inl rfl⟩
    rw [List.append_nil]
    exact stands.marked.others id same

/-- So has a section that is not over, as far as it came. -/
theorem Section.goes {depth : Nat} {rest : Program productSignature (Except Raised Deployment)}
    (section' : Section service state caller body) (consistent : Consistent state)
    (ran : Alone environment service caller 0 (Fallible.locked body).attempt state
      depth rest next) (id : Uuid) :
    ∃ own last, next.marks id = state.marks id ++ own ∧
      follow (Place.next service.tracked) (state.found id) own = some last := by
  have held : KeepsOrder environment service caller state body state :=
    Section.keepsOrder section' consistent
  rcases (Held.locked_path held ran).cases_tail with same | ⟨_, _, ordered⟩
  · rw [same]
    exact ⟨[], state.found id, (List.append_nil _).symm, rfl⟩
  · exact ordered id

end Sections

/-- The observed state stored after a mark. -/
def Mark.stores (before : Option ObservedState) : Mark → Option ObservedState
  | saved observed | paired observed => some observed
  | _ => before

def State.observed (state : State) (id : Uuid) : Option ObservedState :=
  (state.database.getDeployment id).map Deployment.observedState

theorem State.found_eq (state : State) (id : Uuid) : state.found id = .outside (state.observed id) :=
  rfl

section Storing

variable {environment : Environment} {service : ReactorService} {state : State}

/-- An operation stores what its mark says. -/
theorem State.observed_after {caller : Caller Command} {op : Op} {answer : op.Answer}
    (answers : Answers state op answer) (id : Uuid) :
    (state.after caller true op answer).observed id =
      (op.mark answer id).elim (state.observed id) (Mark.stores (state.observed id)) := by
  have replaced : ∀ {deployment : Deployment} {after : Database} {mark : Mark},
      (∀ before, mark.stores before = some deployment.observedState) →
      after.getDeployment id =
        (if deployment.id = id then some deployment else state.database.getDeployment id) →
      (after.getDeployment id).map Deployment.observedState =
        (if deployment.id = id then some mark else none).elim
          (state.observed id) (Mark.stores (state.observed id)) := by
    intro deployment after mark stores saved
    by_cases same : deployment.id = id
    · rw [saved, if_pos same, if_pos same]
      exact (stores _).symm
    · rw [saved, if_neg same, if_neg same]
      rfl
  cases op with
  | utcNow | uuid4 => rfl
  | port engine call =>
      have quiet : ∀ key mark, call.mark answer = some (key, mark) →
          mark.stores (state.observed id) = state.observed id := by
        intro key mark marks
        cases call with
        | prepare => rcases answer with raised | prepared <;> cases marks <;> rfl
        | start => cases marks; rfl
        | verifyServedModel | inspect | stop => cases marks
      change state.observed id = _
      simp only [Op.mark]
      rcases marked : call.mark answer with _ | ⟨key, mark⟩
      · rfl
      · rw [Option.bind_some]
        split
        · exact (quiet key mark marked).symm
        · rfl
  | activity call =>
      change state.observed id = _
      simp only [Op.mark]
      split
      · cases call <;> rfl
      · rfl
  | store op =>
      cases op with
      | getDeployment | getEndpoint | getExecutionRef | resolveIdempotency => rfl
      | saveDeployment deployment => exact replaced (fun _ => rfl) Database.getDeployment_saveDeployment
      | savePair deployment endpoint executionRef =>
          exact replaced (fun _ => rfl) Database.getDeployment_savePair
      | createIntent deployment key digest =>
          rcases state.database.createIntent_spec deployment key digest with
            ⟨refused, unchanged⟩ | ⟨accepted, admits⟩
          · have same : (state.after caller true (.store (.createIntent deployment key digest))
                answer).database = state.database := unchanged
            have silent : answer ≠ .ok none := fun accepted => refused (answers.symm.trans accepted)
            rw [State.observed, same]
            rcases answer with raised | _ | replay
            · rfl
            · exact absurd rfl silent
            · rfl
          · obtain rfl : answer = .ok none := answers.trans accepted
            exact replaced (fun _ => rfl) admits.getDeployment_eq
      | appendDeploymentEvent deploymentId phase message occurredAt failureCode =>
          have kept := Op.sparing_appendDeploymentEvent deploymentId phase message occurredAt
            failureCode state.database
          have same : (state.after caller true
              (.store (.appendDeploymentEvent deploymentId phase message occurredAt failureCode))
              answer).observed id = state.observed id := by
            simp only [State.observed, Database.getDeployment]
            exact congrArg (fun table => (Relational.Table.find? table _).map _) kept.1
          rw [same]
          simp only [Op.mark, StoreOp.mark, Option.bind_some]
          split <;> rfl
      | appendDeploymentDiagnostics deploymentId documents => rfl

theorem Evolves.observed (evolves : Evolves environment service State.initial state) (id : Uuid) :
    state.observed id = (state.marks id).foldl Mark.stores none := by
  refine (evolves.invariant (fun state => state.observed id = (state.marks id).foldl Mark.stores none)
    ?_ initial_consistent rfl).2
  intro caller op state answer _ _ before _ answers _
  rw [State.observed_after answers, State.marks_after, List.foldl_append, ← before]
  cases op.mark answer id <;> rfl

/-- What is stored of the deployment at each place. -/
def Place.Holds : Place → Option ObservedState → Prop
  | .outside found, observed | .admitted found, observed => observed = found
  | .canceling, _ => True
  | .reconciled, observed => observed = some .ready ∨ observed = some .degraded
  | .readying, observed | .verified, observed | .ready, observed => observed = some .ready
  | .failing, observed | .settled, observed | .failed, observed => observed = some .failed
  | .stopping, observed | .stopped, observed => observed = some .stopping
  | .releasing, observed | .freed, observed | .released, observed => observed = some .stopped
  | _, observed => observed = some .starting

theorem Place.Step.holds {tracked : Bool} {place place' : Place} {mark : Mark}
    {observed : Option ObservedState} (step : Place.Step tracked place mark place')
    (holds : place.Holds observed) : place'.Holds (mark.stores observed) := by
  cases step with
  | reconciled _ serving => exact serving.imp (congrArg some) (congrArg some)
  | attempted prepared => rcases prepared with rfl | rfl <;> exact holds
  | admitted | queued | hurried | dispatched | loaded | refused | offered | bare | probed | verified
  | announcedReady | settled | announcedFailed | announcedStopping | completed | released
  | readmitted => exact holds
  | canceled | turned => trivial
  | failed _ _ fails | failedAtOnce _ _ fails => rcases fails with rfl | rfl <;> rfl
  | releasing _ stops | freed _ stops => rcases stops with rfl | rfl <;> rfl
  | restarted | halted | created | prepared | readied | readiedAtOnce | stopping | relaunched => rfl

theorem Place.holds_of_follow {tracked : Bool} {place last : Place} {marks : List Mark}
    {observed : Option ObservedState}
    (followed : follow (Place.next tracked) place marks = some last)
    (holds : place.Holds observed) : last.Holds (marks.foldl Mark.stores observed) := by
  induction marks generalizing place observed with
  | nil =>
      cases followed
      exact holds
  | cons mark rest ih =>
      simp only [follow, List.foldlM_cons, Option.bind_eq_bind, Option.bind_eq_some_iff] at followed
      obtain ⟨middle, stepped, later⟩ := followed
      exact ih later ((Place.step_of_next stepped).holds holds)

/-- Where a section ends says what is stored. -/
theorem Went.holds {command : Command} {next : State} {id : Uuid} {own : List Mark} {last : Place}
    (went : Went service command state next id own last)
    (before : state.observed id = (state.marks id).foldl Mark.stores none)
    (after : next.observed id = (next.marks id).foldl Mark.stores none) :
    last.Holds (next.observed id) := by
  rw [after, went.grown, List.foldl_append, ← before]
  exact Place.holds_of_follow went.followed rfl

end Storing

end CyreneReactor
