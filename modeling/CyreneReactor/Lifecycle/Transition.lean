import CyreneReactor.Lifecycle.Slot
import CyreneReactor.Service.Commands

namespace CyreneReactor

open ReactorService

/-! The lifecycle of one deployment as a relation between what the store holds
about it before and after a write.  `Transition` is the abstract state machine;
that every write of every command is one of its steps is proved with the
commands themselves.
-/

/-- An endpoint written for a slot: a new one, or the next version of the one
the slot has. -/
structure Endpoint.Follows (slot : Slot) (endpoint : Endpoint) : Prop where
  owner : endpoint.deploymentId = slot.deployment.id
  first : slot.endpoint = none → endpoint.resourceVersion = 1
  next : ∀ previous, slot.endpoint = some previous →
    endpoint.id = previous.id ∧ endpoint.createdAt = previous.createdAt ∧
      endpoint.resourceVersion = previous.resourceVersion + 1

inductive Transition : Slot → Slot → Prop where
  /-- `_launch` saves the evidence `prepare` returned. -/
  | prepared {slot : Slot} {endpoint : Endpoint} {executionRef : String}
      (starting : slot.deployment.observedState = .starting)
      (follows : endpoint.Follows slot) (provisioning : endpoint.state = .provisioning) :
      Transition slot
        ⟨{ slot.deployment with endpointId := some endpoint.id }, some endpoint,
          some executionRef⟩
  | ready {slot : Slot} {endpoint : Endpoint} {executionRef : String} {now : Datetime}
      (starting : slot.deployment.observedState = .starting)
      (follows : endpoint.Follows slot) (ready : endpoint.state = .ready) :
      Transition slot
        ⟨readyDeployment slot.deployment endpoint.id now, some endpoint, some executionRef⟩
  | failed {slot : Slot} {failure : ServingEngineFailure} {now : Datetime}
      (starting : slot.deployment.observedState = .starting) :
      Transition slot { slot with deployment := failedDeployment slot.deployment failure now }
  | failedWithEvidence {slot : Slot} {endpoint : Endpoint} {executionRef : String}
      {failure : ServingEngineFailure} {now : Datetime}
      (starting : slot.deployment.observedState = .starting)
      (follows : endpoint.Follows slot) (unhealthy : endpoint.state = .unhealthy) :
      Transition slot
        ⟨{ failedDeployment slot.deployment failure now with endpointId := some endpoint.id },
          some endpoint, some executionRef⟩
  | reconciled {slot : Slot} {endpoint : Endpoint} {observation : EngineObservation}
      {now : Datetime}
      (live : slot.deployment.observedState = .ready ∨ slot.deployment.observedState = .degraded)
      (stored : slot.endpoint = some endpoint) :
      Transition slot
        ⟨reconciledDeployment slot.deployment observation now,
          some (reconciledEndpoint endpoint observation now), slot.executionRef⟩
  | stopping {slot : Slot} {now : Datetime}
      (running : slot.deployment.observedState ≠ .stopped) :
      Transition slot { slot with deployment := stoppingDeployment slot.deployment now }
  | stopped {slot : Slot} {now : Datetime}
      (stopping : slot.deployment.observedState = .stopping) :
      Transition slot
        ⟨stoppedDeployment slot.deployment now,
          slot.endpoint.map fun endpoint => retiredEndpoint endpoint now, slot.executionRef⟩
  | restarted {slot : Slot} {nodeRef : NodeRef} {now : Datetime}
      (stopped : slot.deployment.observedState = .stopped) :
      Transition slot { slot with deployment := startingDeployment slot.deployment nodeRef now }

namespace Transition

variable {old new : Slot}

theorem id_eq (transition : Transition old new) : new.deployment.id = old.deployment.id := by
  cases transition <;> rfl

/-- The changes of `observed_state` the lifecycle allows. -/
def observedChange : ObservedState → ObservedState → Prop
  | .starting, .ready | .starting, .failed | .ready, .degraded | .degraded, .ready
  | .stopping, .stopped | .stopped, .starting => True
  | before, .stopping => before ≠ .stopped
  | _, _ => False

theorem observed (transition : Transition old new) :
    new.deployment.observedState = old.deployment.observedState ∨
      observedChange old.deployment.observedState new.deployment.observedState := by
  cases transition with
  | prepared => exact .inl rfl
  | ready starting _ _ | failed starting | failedWithEvidence starting _ _ =>
      right
      simp only [starting, readyDeployment, failedDeployment, observedChange]
  | @reconciled endpoint observation now live stored =>
      rcases live with live | live <;> cases ready : observation.ready <;>
        simp [live, reconciledDeployment, observedOf, ready, observedChange]
  | stopping running =>
      right
      cases state : old.deployment.observedState <;>
        simp_all [stoppingDeployment, observedChange]
  | stopped stopping =>
      right
      simp only [stopping, stoppedDeployment, observedChange]
  | restarted stopped =>
      right
      simp only [stopped, startingDeployment, observedChange]

/-- STOPPED is only written over STOPPING, and keeps the evidence. -/
theorem halted (transition : Transition old new)
    (stopped : new.deployment.observedState = .stopped) :
    old.deployment.observedState = .stopping ∧ new.executionRef = old.executionRef := by
  cases transition with
  | stopped stopping => exact ⟨stopping, rfl⟩
  | prepared starting _ _ =>
      rw [starting] at stopped
      cases stopped
  | @reconciled endpoint observation now live stored =>
      simp only [reconciledDeployment, observedOf] at stopped
      split at stopped <;> cases stopped
  | ready | failed | failedWithEvidence | stopping | restarted => cases stopped

/-- A deployment that is being stopped stays so, or is stopped. -/
theorem halting (transition : Transition old new)
    (stopping : old.deployment.observedState = .stopping) :
    new.deployment.observedState = .stopped ∨
      (new.deployment.observedState = .stopping ∧ new.executionRef = old.executionRef ∧
        new.endpoint = old.endpoint) := by
  cases transition with
  | stopping => exact .inr ⟨rfl, rfl, rfl⟩
  | stopped => exact .inl rfl
  | prepared starting _ _ | ready starting _ _ | failed starting | failedWithEvidence starting _ _ =>
      rw [starting] at stopping
      cases stopping
  | reconciled live _ => rcases live with live | live <;> rw [live] at stopping <;> cases stopping
  | restarted stopped =>
      rw [stopped] at stopping
      cases stopping

/-- What a launch is given never changes, but for the node. -/
theorem served (transition : Transition old new) :
    new.deployment.servingBindingId = old.deployment.servingBindingId ∧
      runtimeModelVersion new.deployment = runtimeModelVersion old.deployment := by
  cases transition <;> exact ⟨rfl, rfl⟩

end Transition

/-- What a stored document says about itself in each state. -/
structure Deployment.Coherent (deployment : Deployment) : Prop where
  desired : deployment.desiredState = .stopped ↔
    deployment.observedState = .stopping ∨ deployment.observedState = .stopped
  unfailed : deployment.observedState = .starting ∨ deployment.observedState = .ready →
    deployment.failure = none
  failed : deployment.observedState = .failed ∨ deployment.observedState = .degraded →
    deployment.failure.isSome = true
  addressed : deployment.observedState = .ready ∨ deployment.observedState = .degraded →
    deployment.endpointId.isSome = true

theorem newDeployment_coherent (request : CreateDeploymentRequest) (id : Uuid) (now : Datetime) :
    (newDeployment request id now).Coherent := by
  constructor <;> simp [newDeployment]

namespace Transition

variable {old new : Slot}

theorem coherent (transition : Transition old new) (coherent : old.deployment.Coherent) :
    new.deployment.Coherent := by
  obtain ⟨desired, unfailed, failed, addressed⟩ := coherent
  cases transition with
  | prepared starting _ _ =>
      refine ⟨desired, unfailed, failed, fun _ => rfl⟩
  | ready starting _ _ | failedWithEvidence starting _ _ | failed starting =>
      simp only [starting] at desired
      constructor <;> simp_all [readyDeployment, failedDeployment]
  | @reconciled endpoint observation now live stored =>
      have present := addressed live
      have active : old.deployment.desiredState ≠ .stopped := by
        rw [ne_eq, desired]
        rcases live with live | live <;> simp [live]
      constructor <;> cases ready : observation.ready <;>
        simp [reconciledDeployment, observedOf, ready, present, active]
  | stopping running => constructor <;> simp [stoppingDeployment]
  | stopped stopping =>
      have halted := desired.mpr (.inl stopping)
      constructor <;> simp [stoppedDeployment, halted]
  | restarted stopped => constructor <;> simp [startingDeployment]

/-- A write bumps the version, or it is the early save of a launch. -/
theorem version (transition : Transition old new) :
    old.deployment.resourceVersion < new.deployment.resourceVersion ∨
      (new.deployment.resourceVersion = old.deployment.resourceVersion ∧
        old.deployment.observedState = .starting ∧ new.deployment.observedState = .starting ∧
        ∃ endpoint : Endpoint, new.endpoint = some endpoint ∧
          new.deployment = { old.deployment with endpointId := some endpoint.id }) := by
  cases transition with
  | prepared starting _ _ => exact .inr ⟨rfl, starting, starting, _, rfl, rfl⟩
  | ready | failed | failedWithEvidence | reconciled | stopping | stopped | restarted =>
      exact .inl (Nat.lt_succ_self _)

theorem version_le (transition : Transition old new) :
    old.deployment.resourceVersion ≤ new.deployment.resourceVersion := by
  rcases transition.version with bumped | ⟨same, _⟩
  · exact bumped.le
  · exact same.ge

/-- The endpoint a write leaves is the old one, or the old one's next version,
or the first. -/
theorem endpoint (transition : Transition old new) :
    new.endpoint = old.endpoint ∨
      ∃ endpoint : Endpoint, new.endpoint = some endpoint ∧
        (old.endpoint = none → endpoint.resourceVersion = 1) ∧
        ∀ previous, old.endpoint = some previous →
          endpoint.id = previous.id ∧ endpoint.createdAt = previous.createdAt ∧
            endpoint.resourceVersion = previous.resourceVersion + 1 := by
  cases transition with
  | prepared _ follows _ | ready _ follows _ | failedWithEvidence _ follows _ =>
      exact .inr ⟨_, rfl, follows.first, follows.next⟩
  | failed | stopping | restarted => exact .inl rfl
  | reconciled _ stored =>
      refine .inr ⟨_, rfl, fun absent => by simp [stored] at absent, fun previous present => ?_⟩
      rw [stored, Option.some.injEq] at present
      subst present
      exact ⟨rfl, rfl, rfl⟩
  | stopped =>
      cases stored : old.endpoint with
      | none => exact .inl rfl
      | some endpoint =>
          refine .inr ⟨_, rfl, nofun, fun previous present => ?_⟩
          cases present
          exact ⟨rfl, rfl, rfl⟩

end Transition

end CyreneReactor
