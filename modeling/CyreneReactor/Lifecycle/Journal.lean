import Mathlib.Data.List.DropRight
import CyreneReactor.Lifecycle.Slot

namespace CyreneReactor

/-! What the journal says about one deployment. -/

/-- One call of a port with its answer. -/
structure Exchange where
  engine : Engine
  call : PortCall
  answer : call.Answer

def Event.exchange? : Event → Option Exchange
  | ⟨_, .port engine call, answer⟩ => some ⟨engine, call, answer⟩
  | _ => none

def exchanges (journal : List Event) : List Exchange := journal.filterMap Event.exchange?

@[simp] theorem exchanges_append (first second : List Event) :
    exchanges (first ++ second) = exchanges first ++ exchanges second :=
  List.filterMap_append

@[simp] theorem exchanges_nil : exchanges [] = [] := rfl

theorem exchanges_of_silent {event : Event} (silent : event.exchange? = none) :
    exchanges [event] = [] := by
  simp only [exchanges, List.filterMap_cons, silent, List.filterMap_nil]

namespace Exchange

/-- The engine was asked to start an execution. -/
def starts : Exchange → Bool
  | ⟨_, .start _ _ _ _, _⟩ => true
  | _ => false

/-- The engine was asked to inspect an execution. -/
def inspects : Exchange → Bool
  | ⟨_, .inspect _ _ _ _ _, _⟩ => true
  | _ => false

/-- The engine was asked to prepare or to start an execution of the deployment. -/
def launches (id : Uuid) : Exchange → Bool
  | ⟨_, .prepare deploymentId, _⟩ => deploymentId == id
  | ⟨_, .start deploymentId _ _ _, _⟩ => deploymentId == id
  | _ => false

/-- A preparation returned an execution for the deployment, under a valid name. -/
def announces (id : Uuid) : Exchange → Bool
  | ⟨_, .prepare deploymentId, .ok prepared⟩ =>
      match (show Option EngineHandle from prepared) with
      | none => false
      | some handle => deploymentId == id && handle.model != some ""
  | _ => false

/-- A stop naming this execution of the deployment returned. -/
def stopReturned (id : Uuid) (executionRef : String) : Exchange → Bool
  | ⟨_, .stop ref _ deploymentId _ _, .ok _⟩ => deploymentId == id && ref == executionRef
  | _ => false

end Exchange

namespace Event

/-- The event committed a new deployment. -/
def created? : Event → Option Deployment
  | ⟨_, .store (.createIntent deployment _ _), .ok none⟩ => some deployment
  | _ => none

/-- The event wrote the rows of this deployment. -/
def writesSlot (id : Uuid) : Event → Bool
  | ⟨_, .store (.saveDeployment deployment), _⟩ => deployment.id == id
  | ⟨_, .store (.savePair deployment _ _), _⟩ => deployment.id == id
  | event => event.created?.any fun deployment => deployment.id == id

/-- The event persisted STARTING, with which a launch begins. -/
def beginsLaunch (id : Uuid) : Event → Bool
  | ⟨_, .store (.saveDeployment deployment), _⟩ =>
      deployment.id == id && deployment.observedState == .starting
  | event => event.created?.any fun deployment => deployment.id == id

/-- The execution evidence an event recorded for this deployment. -/
def evidence? (id : Uuid) : Event → Option String
  | ⟨_, .store (.savePair deployment _ executionRef), _⟩ =>
      if deployment.id = id then executionRef else none
  | _ => none

theorem writesSlot_of_beginsLaunch {id : Uuid} {event : Event}
    (begins : event.beginsLaunch id = true) : event.writesSlot id = true := by
  obtain ⟨caller, op, answer⟩ := event
  cases op with
  | store op =>
      cases op with
      | saveDeployment deployment =>
          simp only [beginsLaunch, Bool.and_eq_true] at begins
          exact begins.1
      | savePair => cases begins
      | createIntent | getDeployment | getEndpoint | getExecutionRef | resolveIdempotency
      | appendDeploymentEvent | appendDeploymentDiagnostics => exact begins
  | utcNow | uuid4 | port | activity => exact begins

theorem beginsLaunch_of_created {event : Event} {deployment : Deployment}
    (creates : event.created? = some deployment) : event.beginsLaunch deployment.id = true := by
  obtain ⟨caller, op, answer⟩ := event
  cases op with
  | store op =>
      cases op with
      | createIntent =>
          change Option.any _ (created? _) = true
          rw [creates]
          exact beq_self_eq_true deployment.id
      | saveDeployment | savePair | getDeployment | getEndpoint | getExecutionRef
      | resolveIdempotency | appendDeploymentEvent | appendDeploymentDiagnostics => cases creates
  | utcNow | uuid4 | port | activity => cases creates

theorem writesSlot_of_created {event : Event} {deployment : Deployment}
    (creates : event.created? = some deployment) : event.writesSlot deployment.id = true :=
  writesSlot_of_beginsLaunch (beginsLaunch_of_created creates)

/-- Operations that neither touch a slot nor call an engine. -/
def quiet (event : Event) : Prop :=
  event.exchange? = none ∧ ∀ id, event.writesSlot id = false

end Event

/-- The engine calls since the rows of a deployment were last written. -/
def sinceWrite (id : Uuid) (journal : List Event) : List Exchange :=
  exchanges (journal.rtakeWhile fun event => !event.writesSlot id)

/-- The events since the latest launch of a deployment began. -/
def sinceLaunch (id : Uuid) (journal : List Event) : List Event :=
  journal.rtakeWhile fun event => !event.beginsLaunch id

theorem sinceWrite_append (id : Uuid) (journal : List Event) (event : Event) :
    sinceWrite id (journal ++ [event]) =
      if event.writesSlot id then [] else sinceWrite id journal ++ exchanges [event] := by
  unfold sinceWrite
  rw [List.rtakeWhile_concat]
  cases written : event.writesSlot id <;> simp

theorem sinceLaunch_append (id : Uuid) (journal : List Event) (event : Event) :
    sinceLaunch id (journal ++ [event]) =
      if event.beginsLaunch id then [] else sinceLaunch id journal ++ [event] := by
  unfold sinceLaunch
  rw [List.rtakeWhile_concat]
  cases event.beginsLaunch id <;> rfl

/-- A launch begins with a write, so what came after the write came after it. -/
theorem exists_sinceLaunch {id : Uuid} {journal : List Event} {exchange : Exchange}
    (recent : exchange ∈ sinceWrite id journal) :
    ∃ event ∈ sinceLaunch id journal, event.exchange? = some exchange := by
  induction journal using List.reverseRecOn with
  | nil => exact absurd recent List.not_mem_nil
  | append_singleton events event ih =>
      rw [sinceWrite_append] at recent
      rw [sinceLaunch_append]
      cases written : event.writesSlot id with
      | true =>
          rw [written] at recent
          exact absurd recent List.not_mem_nil
      | false =>
          have continues : event.beginsLaunch id = false := by
            cases begins : event.beginsLaunch id with
            | false => rfl
            | true =>
                rw [Event.writesSlot_of_beginsLaunch begins] at written
                cases written
          simp only [written, continues, Bool.false_eq_true, if_false] at recent ⊢
          rcases List.mem_append.mp recent with earlier | last
          · obtain ⟨found, member, same⟩ := ih earlier
            exact ⟨found, List.mem_append_left _ member, same⟩
          · obtain ⟨found, member, same⟩ := List.mem_filterMap.mp last
            exact ⟨found, List.mem_append_right _ member, same⟩

/-- The evidence recorded last since the latest launch began. -/
def recordedEvidence (id : Uuid) (journal : List Event) : Option String :=
  ((sinceLaunch id journal).filterMap (Event.evidence? id)).getLast?

theorem recordedEvidence_append (id : Uuid) (journal : List Event) (event : Event) :
    recordedEvidence id (journal ++ [event]) =
      if event.beginsLaunch id then none
      else (event.evidence? id).or (recordedEvidence id journal) := by
  unfold recordedEvidence
  rw [sinceLaunch_append]
  cases event.beginsLaunch id with
  | true => rfl
  | false =>
      simp only [Bool.false_eq_true, if_false, List.filterMap_append]
      cases found : event.evidence? id with
      | none => simp [found]
      | some ref => simp [found]

end CyreneReactor
