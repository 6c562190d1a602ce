import CyreneReactor.Interaction.Beside
import CyreneReactor.Lifecycle.Stages
import CyreneReactor.Service.Tracker

namespace CyreneReactor

open Interaction ReactorService

/-! What the tracker is told of a deployment, against what is stored of it. -/

def Event.report? : Event → Option ActivityCall
  | ⟨_, .activity call, _⟩ => some call
  | _ => none

/-- What the tracker was told under the lock. -/
def State.reports (state : State) : List ActivityCall := state.journal.filterMap Event.report?

def reported (environment : Environment) (service : ReactorService) :
    Told (service.system environment) ActivityCall where
  read := State.reports
  grows := by
    rintro caller held op state answer next ⟨_, _, rfl⟩
    unfold State.reports State.after
    split
    · exact ⟨_, List.filterMap_append⟩
    · exact ⟨[], (List.append_nil _).symm⟩

/-- The state `list_active_activity_tasks` gives a deployment that is stored so. -/
def activeDeployment : Option ObservedState → Option TaskState
  | some .starting => some .dispatching
  | some .stopping => some .canceling
  | _ => none

/-- The reports among the marks, as the tracker takes them. -/
def Mark.track : Option TaskState → Mark → Option (Option TaskState)
  | none, .admission state => some (some state)
  | some _, .transition state => some (some state)
  | some _, .complete => some none
  | _, .admission _ | _, .transition _ | _, .complete => none
  | entry, _ => some entry

theorem ActivityCall.track_report (entry : Option TaskState) (call : ActivityCall) :
    Mark.track entry call.report = call.track entry := by
  cases entry <;> cases call <;> rfl

/-- The tracker passes over what is written and what the engines are asked. -/
theorem Op.track_mark {op : Op} {answer : op.Answer} {id : Uuid} {mark : Mark}
    (unreported : ∀ call, op ≠ .activity call) (marks : op.mark answer id = some mark)
    (entry : Option TaskState) : Mark.track entry mark = some entry := by
  cases op with
  | utcNow | uuid4 => cases marks
  | activity call => exact absurd rfl (unreported call)
  | store op =>
      cases op with
      | getDeployment | getEndpoint | getExecutionRef | resolveIdempotency
      | appendDeploymentDiagnostics => cases marks
      | createIntent =>
          rcases answer with raised | _ | replay
          · cases marks
          · simp only [Op.mark, StoreOp.mark, Option.bind_some] at marks
            split at marks <;> cases marks
            cases entry <;> rfl
          · cases marks
      | saveDeployment | savePair | appendDeploymentEvent =>
          simp only [Op.mark, StoreOp.mark, Option.bind_some] at marks
          split at marks <;> cases marks
          cases entry <;> rfl
  | port engine call =>
      cases call with
      | prepare =>
          rcases answer with raised | prepared <;>
            simp only [Op.mark, PortCall.mark, Option.bind_some] at marks <;>
            split at marks <;> cases marks <;> cases entry <;> rfl
      | start =>
          simp only [Op.mark, PortCall.mark, Option.bind_some] at marks
          split at marks <;> cases marks
          cases entry <;> rfl
      | verifyServedModel | inspect | stop => cases marks

/-- What an event marks tells the tracker what it reports. -/
theorem Event.track_marks (event : Event) (id : Uuid) (entry : Option TaskState) :
    follow Mark.track entry (event.op.mark event.answer id).toList =
      follow ActivityCall.track entry
        (event.report?.toList.filter fun call => call.task = taskId id) := by
  obtain ⟨caller, op, answer⟩ := event
  have silent : (∀ call, op ≠ .activity call) →
      follow Mark.track entry (op.mark answer id).toList = some entry := by
    intro unreported
    cases marks : op.mark answer id with
    | none => rfl
    | some mark => exact follow_cons.mpr ⟨entry, Op.track_mark unreported marks entry, rfl⟩
  cases op with
  | activity call =>
      by_cases about : call.task = taskId id
      · have told : ([call].filter fun call => call.task = taskId id) = [call] := by simp [about]
        simp only [Op.mark, if_pos about, report?, Option.toList_some, told]
        exact congrArg (· >>= some) (ActivityCall.track_report entry call)
      · have untold : ([call].filter fun call => call.task = taskId id) = [] := by simp [about]
        simp only [Op.mark, if_neg about, report?, Option.toList_some, untold]
        rfl
  | utcNow | uuid4 | store | port => exact silent fun call same => by cases same

theorem State.track_marks (state : State) (id : Uuid) (entry : Option TaskState) :
    follow Mark.track entry (state.marks id) =
      follow ActivityCall.track entry
        (state.reports.filter fun call => call.task = taskId id) := by
  unfold State.marks State.reports
  induction state.journal generalizing entry with
  | nil => rfl
  | cons event rest ih =>
      have marked : ∀ {α : Type} (made : Event → Option α), (event :: rest).filterMap made =
          (made event).toList ++ rest.filterMap made := by
        intro α made
        cases found : made event <;> simp [found]
      rw [marked, marked, List.filter_append, follow_append, follow_append, event.track_marks]
      simp only [ih]

namespace Place

/-- What the tracker holds where a section stands. -/
def Tracks : Place → Option TaskState → Prop
  | outside found, entry => entry = activeDeployment found
  | reconciled, entry | verified, entry | ready, entry | settled, entry | failed, entry
  | freed, entry | released, entry => entry = none
  | admitted _, entry | starting, entry | queued, entry => entry = some .accepted
  | canceling, entry | stopping, entry | stopped, entry | releasing, entry =>
      entry = some .canceling
  | _, entry => entry = some .dispatching

theorem active_of_startable {found : Option ObservedState} (free : startable found = true) :
    activeDeployment found = none := by
  have rest : found = none ∨ found = some .stopped := by
    simpa only [startable, Bool.or_eq_true, beq_iff_eq] using free
  rcases rest with rfl | rfl <;> rfl

theorem Step.tracks {place place' : Place} {mark : Mark} {entry : Option TaskState}
    (step : Place.Step true place mark place') (tracks : place.Tracks entry) :
    ∃ entry', Mark.track entry mark = some entry' ∧ place'.Tracks entry' := by
  cases step with
  | admitted _ free =>
      obtain rfl : entry = none := tracks.trans (active_of_startable free)
      exact ⟨_, rfl, rfl⟩
  | canceled _ idle =>
      have inactive : entry = none := by
        rcases idle with rfl | rfl | rfl <;> exact tracks
      subst inactive
      exact ⟨_, rfl, rfl⟩
  | turned _ active =>
      rcases active with rfl | rfl <;> subst tracks <;> exact ⟨_, rfl, rfl⟩
  | reconciled live =>
      have inactive : entry = none := by
        rcases live with rfl | rfl <;> exact tracks
      subst inactive
      exact ⟨_, rfl, rfl⟩
  | attempted prepared =>
      have dispatched : entry = some .dispatching := by
        rcases prepared with rfl | rfl <;> exact tracks
      subst dispatched
      exact ⟨_, rfl, rfl⟩
  | failed _ unsettled fails =>
      have dispatched : entry = some .dispatching := by
        rcases unsettled with rfl | rfl | rfl | rfl <;> exact tracks
      subst dispatched
      rcases fails with rfl | rfl <;> exact ⟨_, rfl, rfl⟩
  | releasing _ stops =>
      subst tracks
      rcases stops with rfl | rfl <;> exact ⟨_, rfl, rfl⟩
  | restarted off | halted off | hurried off | readiedAtOnce off | failedAtOnce off | freed off
  | relaunched off => cases off
  | created | queued | dispatched | loaded | refused | offered | bare | prepared | probed | readied
  | verified | announcedReady | settled | announcedFailed | stopping | announcedStopping | completed
  | released | readmitted =>
      subst tracks
      exact ⟨_, rfl, rfl⟩

theorem Tracks.follow {place last : Place} {entry : Option TaskState} {marks : List Mark}
    (tracks : place.Tracks entry)
    (followed : Interaction.follow (Place.next true) place marks = some last) :
    ∃ entry', Interaction.follow Mark.track entry marks = some entry' ∧ last.Tracks entry' := by
  refine follow_simulated Tracks (fun place mark place' entry stepped tracks => ?_) followed tracks
  exact (Place.step_of_next stepped).tracks tracks

/-- Where a section ends, the tracker holds what is stored. -/
theorem Tracks.active {place : Place} {entry : Option TaskState} {observed : Option ObservedState}
    (tracks : place.Tracks entry) (rests : place.Settled ∨ place.Left)
    (holds : place.Holds observed) : entry = activeDeployment observed := by
  cases place with
  | outside found =>
      obtain rfl : observed = found := holds
      exact tracks
  | reconciled => rcases holds with rfl | rfl <;> exact tracks
  | refused | ready | failed | stopped | released | loading | bare | offered | pending | attempted
  | probing =>
      subst tracks holds
      rfl
  | admitted | starting | queued | dispatching | readying | verified | failing | settled
  | canceling | stopping | releasing | freed => exact (or_self_iff.mp rests).elim

end Place

section Runs

variable {environment : Environment} {service : ReactorService} {state : State}

/-- Between sections the tracker holds what is stored. -/
theorem Serial.tracked (tracked : service.tracked = true)
    (serial : Serial environment service state) (id : Uuid) :
    follow Mark.track none (state.marks id) = some (activeDeployment (state.observed id)) := by
  induction serial with
  | initial => rfl
  | @next caller state next body result before unseen section' ran ih =>
      have later : Serial environment service next := before.next unseen section' ran
      obtain ⟨own, last, went⟩ := section'.went before.consistent ran id
      have holds := went.holds (before.evolves.observed id) (later.evolves.observed id)
      have followed := went.followed
      rw [tracked] at followed
      have began : (state.found id).Tracks (activeDeployment (state.observed id)) := rfl
      obtain ⟨entry, told, tracks⟩ := began.follow followed
      have rests : last.Settled ∨ last.Left := by
        rcases went.ended with rfl | ended
        · exact .inl trivial
        · exact ended.rests
      rw [went.grown, follow_append, ih, Option.bind_some, told, tracks.active rests holds]

/-- Inside a section it still takes every report. -/
theorem Underway.tracked (tracked : service.tracked = true)
    (underway : Underway environment service state) (id : Uuid) :
    ∃ entry, follow Mark.track none (state.marks id) = some entry := by
  obtain ⟨start, caller, body, serial, _, section', depth, rest, ran⟩ := underway
  obtain ⟨own, last, grown, followed⟩ := section'.goes serial.consistent ran id
  rw [tracked] at followed
  have began : (start.found id).Tracks (activeDeployment (start.observed id)) := rfl
  obtain ⟨entry, told, _⟩ := began.follow followed
  refine ⟨entry, ?_⟩
  rw [grown, follow_append, serial.tracked tracked, Option.bind_some, told]

end Runs

end CyreneReactor
