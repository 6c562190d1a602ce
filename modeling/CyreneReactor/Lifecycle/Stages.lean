import CyreneReactor.Lifecycle.Stream

namespace CyreneReactor

open Interaction ReactorService

/-! The launch and stop lifecycle, as a subscriber reads it off the events.

A launch is QUEUED, then LOADING, optionally PROBING, then READY or FAILED, or nothing
more when its preparation was refused.  One or more STOPPING are ended by RELEASED.
-/

inductive Stage where
  | fresh
  | queued
  | loading
  | unprepared
  | probing
  | ready
  | failed
  | stopping
  | released
deriving DecidableEq, Repr

namespace Stage

/-- Of all marks only announcements and refused preparations are read. -/
def next : Stage → Mark → Option Stage
  | fresh, .announced .queued | released, .announced .queued => some queued
  | queued, .announced .loading => some loading
  | loading, .refused => some unprepared
  | loading, .announced .probing => some probing
  | loading, .announced .ready | probing, .announced .ready => some ready
  | loading, .announced .failed | probing, .announced .failed => some failed
  | unprepared, .announced .stopping | ready, .announced .stopping
  | failed, .announced .stopping | stopping, .announced .stopping => some stopping
  | stopping, .announced .released => some released
  | _, .announced _ | _, .refused => none
  | stage, _ => some stage

/-- No launch is left without its end. -/
def Complete : Stage → Prop
  | queued | loading | probing => False
  | _ => True

/-- What a deployment is stored as at the end of a launch or a stop. -/
def Agrees : Stage → Option ObservedState → Prop
  | fresh, observed => observed = none
  | ready, observed => observed = some .ready ∨ observed = some .degraded
  | failed, observed => observed = some .failed
  | stopping, observed => observed = some .stopping
  | released, observed => observed = some .stopped
  | _, observed => observed = some .starting

end Stage

namespace Place

/-- Where the lifecycle stands when a section that began at a complete stage stands here. -/
def Tells : Place → Stage → Prop
  | outside found, stage => stage.Complete ∧ stage.Agrees found
  | admitted _, stage | starting, stage => stage = .fresh ∨ stage = .released
  | reconciled, stage | ready, stage => stage = .ready
  | queued, stage | dispatching, stage => stage = .queued
  | loading, stage | bare, stage | offered, stage | pending, stage | attempted, stage =>
      stage = .loading
  | refused, stage => stage = .unprepared
  | probing, stage | readying, stage | verified, stage => stage = .probing
  | failing, stage | settled, stage => stage = .loading ∨ stage = .probing
  | failed, stage => stage = .failed
  | canceling, stage | stopping, stage =>
      stage = .unprepared ∨ stage = .ready ∨ stage = .failed ∨ stage = .stopping
  | stopped, stage | releasing, stage | freed, stage => stage = .stopping
  | released, stage => stage = .released

/-- A section that is over left no launch without its end. -/
def Settled : Place → Prop
  | outside _ | reconciled | refused | ready | failed | stopped | released => True
  | _ => False

theorem tells_startable {found : Option ObservedState} {stage : Stage}
    (free : startable found = true) (complete : stage.Complete) (agrees : stage.Agrees found) :
    stage = .fresh ∨ stage = .released := by
  have rest : found = none ∨ found = some .stopped := by
    simpa only [startable, Bool.or_eq_true, beq_iff_eq] using free
  rcases rest with rfl | rfl <;> cases stage <;> simp_all [Stage.Complete, Stage.Agrees]

theorem tells_stoppable {found : Option ObservedState} {stage : Stage}
    (running : startable found = false) (complete : stage.Complete) (agrees : stage.Agrees found) :
    stage = .unprepared ∨ stage = .ready ∨ stage = .failed ∨ stage = .stopping := by
  cases stage <;> simp_all [Stage.Complete, Stage.Agrees, startable]

theorem Step.tells {tracked : Bool} {place place' : Place} {mark : Mark} {stage : Stage}
    (step : Place.Step tracked place mark place') (tells : place.Tells stage) :
    ∃ stage', stage.next mark = some stage' ∧ place'.Tells stage' := by
  cases step with
  | admitted _ free | restarted _ free =>
      exact ⟨stage, by cases stage <;> rfl, tells_startable free tells.1 tells.2⟩
  | created | stopping | settled => exact ⟨stage, by cases stage <;> rfl, tells⟩
  | canceled _ idle =>
      refine ⟨stage, by cases stage <;> rfl, tells_stoppable ?_ tells.1 tells.2⟩
      rcases idle with rfl | rfl | rfl <;> rfl
  | turned _ active =>
      refine ⟨stage, by cases stage <;> rfl, tells_stoppable ?_ tells.1 tells.2⟩
      rcases active with rfl | rfl <;> rfl
  | halted _ running =>
      exact ⟨stage, by cases stage <;> rfl, tells_stoppable running tells.1 tells.2⟩
  | reconciled live =>
      have serving : stage = .ready := by
        obtain ⟨complete, agrees⟩ := tells
        rcases live with rfl | rfl <;> cases stage <;> simp_all [Stage.Complete, Stage.Agrees]
      exact ⟨stage, by cases stage <;> rfl, serving⟩
  | attempted prepared =>
      obtain rfl : stage = .loading := by rcases prepared with rfl | rfl <;> exact tells
      exact ⟨.loading, rfl, rfl⟩
  | failed _ unsettled fails | failedAtOnce _ unsettled fails =>
      have launching : stage = .loading ∨ stage = .probing := by
        rcases unsettled with rfl | rfl | rfl | rfl
        · exact .inl tells
        · exact .inl tells
        · exact .inl tells
        · exact .inr tells
      refine ⟨stage, ?_, launching⟩
      rcases fails with rfl | rfl <;> rcases launching with rfl | rfl <;> rfl
  | releasing _ stops | freed _ stops =>
      obtain rfl : stage = .stopping := tells
      refine ⟨.stopping, ?_, rfl⟩
      rcases stops with rfl | rfl <;> rfl
  | queued | hurried =>
      rcases tells with rfl | rfl <;> exact ⟨.queued, rfl, rfl⟩
  | announcedStopping =>
      rcases tells with rfl | rfl | rfl | rfl <;> exact ⟨.stopping, rfl, rfl⟩
  | announcedFailed =>
      rcases tells with rfl | rfl <;> exact ⟨.failed, rfl, rfl⟩
  | readmitted | relaunched =>
      obtain rfl : stage = .released := tells
      exact ⟨.released, rfl, .inr rfl⟩
  | dispatched | loaded | refused | offered | bare | prepared | probed | readied | readiedAtOnce
  | verified | announcedReady | completed | released =>
      subst tells
      exact ⟨_, rfl, rfl⟩

theorem Tells.follow {tracked : Bool} {place last : Place} {stage : Stage} {marks : List Mark}
    (tells : place.Tells stage)
    (followed : Interaction.follow (Place.next tracked) place marks = some last) :
    ∃ stage', Interaction.follow Stage.next stage marks = some stage' ∧ last.Tells stage' := by
  refine follow_simulated Tells (fun place mark place' stage stepped tells => ?_) followed tells
  exact (Place.step_of_next stepped).tells tells

/-- Where a section ends that left no launch, the lifecycle is complete. -/
theorem Tells.agrees {place : Place} {stage : Stage} {observed : Option ObservedState}
    (tells : place.Tells stage) (settled : place.Settled) (holds : place.Holds observed) :
    stage.Complete ∧ stage.Agrees observed := by
  cases place with
  | outside found =>
      obtain rfl : observed = found := holds
      exact tells
  | reconciled | refused | ready | failed | stopped | released =>
      subst tells
      first
        | exact ⟨trivial, holds⟩
        | exact ⟨trivial, .inl holds⟩
  | admitted | starting | queued | dispatching | loading | bare | offered | pending | attempted
  | probing | readying | verified | failing | settled | canceling | stopping | releasing | freed =>
      exact settled.elim

/-- A launch was left here without an end. -/
def Left : Place → Prop
  | loading | bare | offered | pending | attempted | probing => True
  | _ => False

theorem Left.holds {place : Place} {observed : Option ObservedState} (left : place.Left)
    (holds : place.Holds observed) : observed = some .starting := by
  cases place <;> first | exact holds | exact left.elim

theorem Left.tells {place : Place} {stage : Stage} (left : place.Left) (tells : place.Tells stage) :
    stage = .loading ∨ stage = .probing := by
  cases place with
  | loading | bare | offered | pending | attempted => exact .inl tells
  | probing => exact .inr tells
  | outside | reconciled | admitted | starting | queued | dispatching | refused | readying
  | verified | ready | failing | settled | failed | canceling | stopping | stopped | releasing
  | freed | released => exact left.elim

/-- STARTING is saved, and nothing was stopped since. -/
def launching : Place → Bool
  | outside _ | reconciled | admitted _ | canceling | stopping | stopped | releasing | freed
  | released => false
  | _ => true

theorem Step.launching {tracked : Bool} {place place' : Place} {mark : Mark}
    (step : Place.Step tracked place mark place') :
    place'.launching = (place.launching || decide (mark = .saved .starting)) := by
  cases step with
  | attempted prepared => rcases prepared with rfl | rfl <;> rfl
  | failed _ unsettled | failedAtOnce _ unsettled =>
      rcases unsettled with rfl | rfl | rfl | rfl <;> rfl
  | releasing _ stops | freed _ stops => rcases stops with rfl | rfl <;> rfl
  | admitted | restarted | canceled | turned | halted | reconciled | created | queued | hurried
  | dispatched | loaded | refused | offered | bare | prepared | probed | readied | readiedAtOnce
  | verified | announcedReady | settled | announcedFailed | stopping | announcedStopping
  | completed | released | readmitted | relaunched => rfl

/-- A launch is what STARTING was saved for. -/
theorem launching_of_follow {tracked : Bool} {place last : Place} {marks : List Mark}
    (followed : follow (Place.next tracked) place marks = some last) :
    last.launching = (place.launching || decide (.saved .starting ∈ marks)) := by
  induction marks generalizing place with
  | nil =>
      cases followed
      simp
  | cons mark rest ih =>
      simp only [follow, List.foldlM_cons, Option.bind_eq_bind, Option.bind_eq_some_iff] at followed
      obtain ⟨middle, stepped, later⟩ := followed
      rw [ih later, (Place.step_of_next stepped).launching]
      by_cases first : mark = .saved .starting
      · simp [first]
      · simp [first, Ne.symm first]

/-- After a launch that was left, only a stop goes on, and its announcement is out of order. -/
def Lost (place : Place) (stage : Option Stage) : Prop :=
  stage = none ∨ ((stage = some .loading ∨ stage = some .probing) ∧
    (place = outside (some .starting) ∨ place = canceling ∨ place = stopping))

theorem Step.lost {tracked : Bool} {place place' : Place} {mark : Mark} {stage : Option Stage}
    (step : Place.Step tracked place mark place') (lost : place.Lost stage) :
    place'.Lost (stage.bind (Stage.next · mark)) := by
  rcases lost with rfl | ⟨incomplete, rfl | rfl | rfl⟩
  · exact .inl rfl
  · refine .inr ?_
    cases step with
    | admitted _ free | restarted _ free => cases free
    | canceled _ idle => rcases idle with idle | idle | idle <;> cases idle
    | reconciled live => rcases live with live | live <;> cases live
    | turned => exact ⟨by rcases incomplete with rfl | rfl <;> simp [Stage.next], .inr (.inl rfl)⟩
    | halted => exact ⟨by rcases incomplete with rfl | rfl <;> simp [Stage.next], .inr (.inr rfl)⟩
    | attempted prepared => rcases prepared with prepared | prepared <;> cases prepared
    | failed _ unsettled | failedAtOnce _ unsettled =>
        rcases unsettled with unsettled | unsettled | unsettled | unsettled <;> cases unsettled
  · refine .inr ?_
    cases step with
    | stopping => exact ⟨by rcases incomplete with rfl | rfl <;> simp [Stage.next], .inr (.inr rfl)⟩
    | attempted prepared => rcases prepared with prepared | prepared <;> cases prepared
    | failed _ unsettled | failedAtOnce _ unsettled =>
        rcases unsettled with unsettled | unsettled | unsettled | unsettled <;> cases unsettled
  · refine .inl ?_
    cases step with
    | announcedStopping => rcases incomplete with rfl | rfl <;> rfl
    | attempted prepared => rcases prepared with prepared | prepared <;> cases prepared
    | failed _ unsettled | failedAtOnce _ unsettled =>
        rcases unsettled with unsettled | unsettled | unsettled | unsettled <;> cases unsettled

theorem Lost.follow {tracked : Bool} {place last : Place} {stage : Option Stage}
    {marks : List Mark} (lost : place.Lost stage)
    (followed : Interaction.follow (Place.next tracked) place marks = some last) :
    last.Lost (stage.bind (Interaction.follow Stage.next · marks)) := by
  have steps : ∀ place mark place' stage, Place.next tracked place mark = some place' →
      place.Lost stage → ∃ stage', some (stage.bind (Stage.next · mark)) = some stage' ∧
        place'.Lost stage' :=
    fun _ _ _ _ stepped lost => ⟨_, rfl, (Place.step_of_next stepped).lost lost⟩
  obtain ⟨stage', later, lost'⟩ := follow_simulated Lost steps followed lost
  rw [follow_bind, Option.some.injEq] at later
  rw [later]
  exact lost'

end Place

/-- What is stored once the phase was announced. -/
def DeploymentPhase.observed : DeploymentPhase → ObservedState
  | queued | importing | loading | probing => .starting
  | ready => .ready
  | failed => .failed
  | stopping => .stopping
  | released => .stopped

/-- READY and DEGRADED are not told apart. -/
def ObservedState.serving : ObservedState → ObservedState
  | degraded => ready
  | observed => observed

/-- The last phase determines what is stored. -/
def Determines (phase : Option DeploymentPhase) (observed : Option ObservedState) : Prop :=
  observed.map ObservedState.serving = phase.map DeploymentPhase.observed

namespace Place

/-- The last phase where a section may end. -/
def Shows : Place → Option DeploymentPhase → Prop
  | outside found, phase => Determines phase found
  | reconciled, phase | ready, phase => Determines phase (some .ready)
  | loading, phase | refused, phase | bare, phase | offered, phase | pending, phase
  | attempted, phase => phase = some .loading
  | probing, phase => phase = some .probing
  | failed, phase => phase = some .failed
  | stopped, phase => phase = some .stopping
  | released, phase => phase = some .released
  | _, _ => True

theorem Step.shows {tracked : Bool} {place place' : Place} {mark : Mark}
    {phase : Option DeploymentPhase} (step : Place.Step tracked place mark place')
    (shows' : place.Shows phase) : place'.Shows (mark.phase?.or phase) := by
  cases step with
  | reconciled live =>
      rcases live with rfl | rfl <;> exact shows'
  | attempted prepared => rcases prepared with rfl | rfl <;> exact shows'
  | refused | offered | bare | prepared => exact shows'
  | loaded | probed | announcedReady | announcedFailed | announcedStopping | released => rfl
  | admitted | restarted | canceled | turned | halted | created | queued | hurried | dispatched
  | readied | readiedAtOnce | verified | failed | failedAtOnce | settled | stopping | releasing
  | freed | completed | readmitted | relaunched => trivial

theorem Shows.follow {tracked : Bool} {place last : Place} {phase : Option DeploymentPhase}
    {marks : List Mark} (shows' : place.Shows phase)
    (followed : Interaction.follow (Place.next tracked) place marks = some last) :
    last.Shows ((marks.filterMap Mark.phase?).getLast?.or phase) := by
  induction marks generalizing place phase with
  | nil =>
      cases followed
      exact shows'
  | cons mark rest ih =>
      simp only [Interaction.follow, List.foldlM_cons, Option.bind_eq_bind, Option.bind_eq_some_iff]
        at followed
      obtain ⟨middle, stepped, later⟩ := followed
      have shown := ih ((Place.step_of_next stepped).shows shows') later
      cases announced : mark.phase? with
      | none => simpa [announced] using shown
      | some first =>
          rw [announced] at shown
          rw [List.filterMap_cons_some announced, List.getLast?_cons]
          cases earlier : (rest.filterMap Mark.phase?).getLast? <;> simpa [earlier] using shown

/-- Where a section ends, the last phase determines what is stored. -/
theorem Shows.determines {place : Place} {observed : Option ObservedState}
    {phase : Option DeploymentPhase} (shows' : place.Shows phase)
    (rests : place.Settled ∨ place.Left) (holds : place.Holds observed) :
    Determines phase observed := by
  cases place with
  | outside found =>
      obtain rfl : observed = found := holds
      exact shows'
  | reconciled => rcases holds with rfl | rfl <;> exact shows'
  | ready =>
      obtain rfl : observed = some .ready := holds
      exact shows'
  | refused | failed | stopped | released | loading | bare | offered | pending | attempted
  | probing =>
      subst shows' holds
      rfl
  | admitted | starting | queued | dispatching | readying | verified | failing | settled
  | canceling | stopping | releasing | freed => exact (rests.elim id id).elim

theorem Ends.rests {command : Command} {place : Place} (ended : place.Ends command) :
    place.Settled ∨ place.Left := by
  have launched : place.Launched → place.Settled ∨ place.Left := by
    intro launched
    cases place <;> first | exact .inl trivial | exact .inr trivial | exact launched.elim
  cases command with
  | create =>
      rcases ended with rfl | launches
      · exact .inl trivial
      · exact launched launches
  | get =>
      obtain rfl : place = .reconciled := ended
      exact .inl trivial
  | stop => rcases ended with rfl | rfl <;> exact .inl trivial
  | restart =>
      rcases ended with rfl | launches
      · exact .inl trivial
      · exact launched launches

end Place

end CyreneReactor
