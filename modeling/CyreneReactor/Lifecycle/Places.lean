import CyreneReactor.Interaction.Trail
import CyreneReactor.Lifecycle.Section

namespace CyreneReactor

open Interaction ReactorService

/-! What a section has done about one deployment so far, and what it may do next.

Saves, events, reports to the tracker and the first calls of a launch are marks; a
place is where the order of `service.py` stands between two of them.
-/

inductive Mark where
  | admission (state : TaskState)
  | transition (state : TaskState)
  | complete
  | saved (observed : ObservedState)
  | paired (observed : ObservedState)
  | announced (phase : DeploymentPhase)
  | refused
  | offered (prepared : Bool)
  | started
deriving DecidableEq, Repr

namespace ActivityCall

def report : ActivityCall → Mark
  | admission _ state => .admission state
  | transition _ state => .transition state
  | complete _ => .complete

end ActivityCall

def StoreOp.mark : (op : StoreOp) → op.Answer → Option (Uuid × Mark)
  | .createIntent deployment _ _, .ok none => some (deployment.id, .saved deployment.observedState)
  | .saveDeployment deployment, _ => some (deployment.id, .saved deployment.observedState)
  | .savePair deployment _ _, _ => some (deployment.id, .paired deployment.observedState)
  | .appendDeploymentEvent id phase _ _ _, _ => some (id, .announced phase)
  | _, _ => none

def PortCall.mark : (call : PortCall) → call.Answer → Option (Uuid × Mark)
  | .prepare id, .error _ => some (id, .refused)
  | .prepare id, .ok prepared => some (id, .offered (show Option EngineHandle from prepared).isSome)
  | .start id _ _ _, _ => some (id, .started)
  | _, _ => none

/-- The mark an operation leaves under a deployment. -/
def Op.mark : (op : Op) → op.Answer → Uuid → Option Mark
  | .activity call, _, id => if call.task = taskId id then some call.report else none
  | .store op, answer, id => (op.mark answer).bind fun mark => if mark.1 = id then some mark.2 else none
  | .port _ call, answer, id =>
      (call.mark answer).bind fun mark => if mark.1 = id then some mark.2 else none
  | .utcNow, _, _ | .uuid4, _, _ => none

def State.marks (state : State) (id : Uuid) : List Mark :=
  state.journal.filterMap fun event => event.op.mark event.answer id

theorem Op.unmarked_of_unrecorded {op : Op} {answer : op.Answer} {id : Uuid}
    (unrecorded : op.recorded = false) : op.mark answer id = none := by
  cases op with
  | utcNow => rfl
  | uuid4 | port | activity => cases unrecorded
  | store op =>
      cases op with
      | getDeployment | getEndpoint | getExecutionRef | resolveIdempotency => rfl
      | createIntent | saveDeployment | savePair | appendDeploymentEvent
      | appendDeploymentDiagnostics => cases unrecorded

theorem State.marks_after {state : State} {caller : Caller Command} {op : Op} {answer : op.Answer}
    (id : Uuid) : (state.after caller true op answer).marks id =
      state.marks id ++ (op.mark answer id).toList := by
  cases recorded : op.recorded with
  | false =>
      rw [State.after_unrecorded recorded, Op.unmarked_of_unrecorded recorded]
      exact (List.append_nil _).symm
  | true =>
      have made : [(⟨caller, op, answer⟩ : Event)].filterMap
          (fun event => event.op.mark event.answer id) = (op.mark answer id).toList := by
        cases marked : op.mark answer id <;> simp [marked]
      rw [State.marks, State.after_recorded recorded, List.filterMap_append, made]
      rfl

def marks (environment : Environment) (service : ReactorService) :
    Trail (service.system environment) Uuid Mark where
  read := State.marks
  mark := Op.mark
  grows := by
    rintro caller op state answer next ⟨_, _, rfl⟩ id
    exact State.marks_after id

/-- Where a section stands with a deployment: before it marked it, and after each mark. -/
inductive Place where
  /-- Nothing is done yet; the deployment is stored so, when it is stored. -/
  | outside (found : Option ObservedState)
  | reconciled
  | admitted (found : Option ObservedState)
  | starting
  | queued
  | dispatching
  | loading
  | refused
  | bare
  | offered
  | pending
  | attempted
  | probing
  | readying
  | verified
  | ready
  | failing
  | settled
  | failed
  | canceling
  | stopping
  | stopped
  | releasing
  | freed
  | released
deriving DecidableEq, Repr

/-- The deployment is new, or at rest and may be launched again. -/
def startable (found : Option ObservedState) : Bool :=
  found == none || found == some .stopped

/-- The first mark of a section.  `tracked` says whether there is a tracker. -/
def Place.first (tracked : Bool) (found : Option ObservedState) : Mark → Option Place
  | .admission .accepted => if tracked && startable found then some (.admitted found) else none
  | .saved .starting => if !tracked && startable found then some .starting else none
  | .admission .canceling =>
      if tracked && (found == some .ready || found == some .degraded || found == some .failed)
        then some .canceling else none
  | .transition .canceling =>
      if tracked && (found == some .starting || found == some .stopping)
        then some .canceling else none
  | .saved .stopping => if !tracked && !startable found then some .stopping else none
  | .paired .ready | .paired .degraded =>
      if found == some .ready || found == some .degraded then some .reconciled else none
  | _ => none

/-- The order of `service.py`. -/
def Place.next (tracked : Bool) : Place → Mark → Option Place
  | .outside found, mark => Place.first tracked found mark
  | .admitted _, .saved .starting => some .starting
  | .starting, .announced .queued => some (if tracked then .queued else .dispatching)
  | .queued, .transition .dispatching => some .dispatching
  | .dispatching, .announced .loading => some .loading
  | .loading, .refused => some .refused
  | .loading, .offered prepared => some (if prepared then .offered else .bare)
  | .offered, .paired .starting => some .pending
  | .bare, .started | .pending, .started => some .attempted
  | .attempted, .announced .probing => some .probing
  | .probing, .paired .ready => some (if tracked then .readying else .verified)
  | .readying, .complete => some .verified
  | .verified, .announced .ready => some .ready
  | .bare, .saved .failed | .pending, .saved .failed | .attempted, .saved .failed
  | .probing, .saved .failed | .bare, .paired .failed | .pending, .paired .failed
  | .attempted, .paired .failed | .probing, .paired .failed =>
      some (if tracked then .failing else .settled)
  | .failing, .complete => some .settled
  | .settled, .announced .failed => some .failed
  | .canceling, .saved .stopping => some .stopping
  | .stopping, .announced .stopping => some .stopped
  | .stopped, .saved .stopped | .stopped, .paired .stopped =>
      some (if tracked then .releasing else .freed)
  | .releasing, .complete => some .freed
  | .freed, .announced .released => some .released
  | .released, .admission .accepted => if tracked then some (.admitted (some .stopped)) else none
  | .released, .saved .starting => if tracked then none else some .starting
  | _, _ => none

/-- The steps of `Place.next`, one for each mark. -/
inductive Place.Step (tracked : Bool) : Place → Mark → Place → Prop where
  | admitted {found : Option ObservedState} (on : tracked = true) (free : startable found = true) :
      Step tracked (.outside found) (.admission .accepted) (.admitted found)
  | restarted {found : Option ObservedState} (off : tracked = false)
      (free : startable found = true) : Step tracked (.outside found) (.saved .starting) .starting
  | canceled {found : Option ObservedState} (on : tracked = true)
      (idle : found = some .ready ∨ found = some .degraded ∨ found = some .failed) :
      Step tracked (.outside found) (.admission .canceling) .canceling
  | turned {found : Option ObservedState} (on : tracked = true)
      (active : found = some .starting ∨ found = some .stopping) :
      Step tracked (.outside found) (.transition .canceling) .canceling
  | halted {found : Option ObservedState} (off : tracked = false)
      (running : startable found = false) :
      Step tracked (.outside found) (.saved .stopping) .stopping
  | reconciled {found : Option ObservedState} {observed : ObservedState}
      (live : found = some .ready ∨ found = some .degraded)
      (serving : observed = .ready ∨ observed = .degraded) :
      Step tracked (.outside found) (.paired observed) .reconciled
  | created {found : Option ObservedState} :
      Step tracked (.admitted found) (.saved .starting) .starting
  | queued (on : tracked = true) : Step tracked .starting (.announced .queued) .queued
  | hurried (off : tracked = false) : Step tracked .starting (.announced .queued) .dispatching
  | dispatched : Step tracked .queued (.transition .dispatching) .dispatching
  | loaded : Step tracked .dispatching (.announced .loading) .loading
  | refused : Step tracked .loading .refused .refused
  | offered : Step tracked .loading (.offered true) .offered
  | bare : Step tracked .loading (.offered false) .bare
  | prepared : Step tracked .offered (.paired .starting) .pending
  | attempted {place : Place} (prepared : place = .bare ∨ place = .pending) :
      Step tracked place .started .attempted
  | probed : Step tracked .attempted (.announced .probing) .probing
  | readied (on : tracked = true) : Step tracked .probing (.paired .ready) .readying
  | readiedAtOnce (off : tracked = false) : Step tracked .probing (.paired .ready) .verified
  | verified : Step tracked .readying .complete .verified
  | announcedReady : Step tracked .verified (.announced .ready) .ready
  | failed {place : Place} {mark : Mark} (on : tracked = true)
      (unsettled : place = .bare ∨ place = .pending ∨ place = .attempted ∨ place = .probing)
      (fails : mark = .saved .failed ∨ mark = .paired .failed) : Step tracked place mark .failing
  | failedAtOnce {place : Place} {mark : Mark} (off : tracked = false)
      (unsettled : place = .bare ∨ place = .pending ∨ place = .attempted ∨ place = .probing)
      (fails : mark = .saved .failed ∨ mark = .paired .failed) : Step tracked place mark .settled
  | settled : Step tracked .failing .complete .settled
  | announcedFailed : Step tracked .settled (.announced .failed) .failed
  | stopping : Step tracked .canceling (.saved .stopping) .stopping
  | announcedStopping : Step tracked .stopping (.announced .stopping) .stopped
  | releasing {mark : Mark} (on : tracked = true)
      (stops : mark = .saved .stopped ∨ mark = .paired .stopped) :
      Step tracked .stopped mark .releasing
  | freed {mark : Mark} (off : tracked = false)
      (stops : mark = .saved .stopped ∨ mark = .paired .stopped) : Step tracked .stopped mark .freed
  | completed : Step tracked .releasing .complete .freed
  | released : Step tracked .freed (.announced .released) .released
  | readmitted (on : tracked = true) :
      Step tracked .released (.admission .accepted) (.admitted (some .stopped))
  | relaunched (off : tracked = false) : Step tracked .released (.saved .starting) .starting

theorem Place.step_of_first {tracked : Bool} {found : Option ObservedState} {mark : Mark}
    {place : Place} (first : Place.first tracked found mark = some place) :
    Place.Step tracked (.outside found) mark place := by
  unfold Place.first at first
  split at first
  case h_8 => cases first
  all_goals
    split at first
    case isFalse => cases first
    rename_i allowed
    simp only [Bool.and_eq_true, Bool.or_eq_true, Bool.not_eq_true', beq_iff_eq, or_assoc] at allowed
    cases first
  · exact .admitted allowed.1 allowed.2
  · exact .restarted allowed.1 allowed.2
  · exact .canceled allowed.1 allowed.2
  · exact .turned allowed.1 allowed.2
  · exact .halted allowed.1 allowed.2
  · exact .reconciled allowed (.inl rfl)
  · exact .reconciled allowed (.inr rfl)

theorem Place.step_of_next {tracked : Bool} {place place' : Place} {mark : Mark}
    (next : place.next tracked mark = some place') : Place.Step tracked place mark place' := by
  unfold Place.next at next
  split at next
  case h_1 => exact step_of_first next
  all_goals first
    | cases next
      first
        | exact .attempted (by decide)
        | exact .settled
        | exact .completed
        | constructor
    | -- whether the report is made depends on the tracker
      cases tracked <;> cases next <;>
        first
          | exact .failed rfl (by decide) (by decide)
          | exact .failedAtOnce rfl (by decide) (by decide)
          | exact .releasing rfl (by decide)
          | exact .freed rfl (by decide)
          | (constructor; rfl)
    | (rename_i prepared; cases prepared <;> cases next <;> constructor)

namespace Place

/-- Nothing is written yet. -/
def untouched : Place → Bool
  | outside _ | admitted none => true
  | _ => false

/-- A started execution was not settled yet. -/
def Unsettled : Place → Prop
  | bare | pending | attempted | probing => True
  | _ => False

/-- A launch ends here. -/
def Launched : Place → Prop
  | loading | refused | bare | offered | pending | attempted | probing | ready | failed => True
  | _ => False

/-- The deployment is stopped and may be launched again. -/
def Restartable (place : Place) : Prop :=
  place = outside (some .stopped) ∨ place = released

/-- A section of the command that marked the deployment ends here. -/
def Ends : Command → Place → Prop
  | .create _ _, place => place = reconciled ∨ place.Launched
  | .get _, place => place = reconciled
  | .stop _, place => place = stopped ∨ place = released
  | .restart _ _ _, place => place = stopped ∨ place.Launched

theorem Unsettled.launched {place : Place} (unsettled : place.Unsettled) : place.Launched := by
  cases place <;> trivial

theorem Unsettled.fails {place : Place} (unsettled : place.Unsettled) (tracked : Bool) {mark : Mark}
    (fails : mark = .saved .failed ∨ mark = .paired .failed) :
    place.next tracked mark = some (if tracked then .failing else .settled) := by
  rcases fails with rfl | rfl <;> cases place <;> first | rfl | exact unsettled.elim

end Place

end CyreneReactor
