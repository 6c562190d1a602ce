import CyreneReactor.Lifecycle.Journal
import CyreneReactor.Lifecycle.Transition

namespace CyreneReactor

open Interaction ReactorService

/-! What a command may do under the lock, operation by operation, and what that
leaves true of the whole store.
-/

/-- The rows of the store fit together and every id was drawn. -/
structure Consistent (state : State) : Prop where
  linked : state.database.Linked
  deploymentIssued : ∀ deployment ∈ state.database.deployments.rows,
    deployment.id ∈ issued state.journal
  endpointIssued : ∀ endpoint ∈ state.database.endpoints.rows, endpoint.id ∈ issued state.journal

theorem initial_consistent : Consistent State.initial where
  linked := Database.linked_empty
  deploymentIssued _ member := absurd member List.not_mem_nil
  endpointIssued _ member := absurd member List.not_mem_nil

/-- The caller has already written the rows of this deployment. -/
def Wrote (caller : Caller Command) (id : Uuid) (journal : List Event) : Prop :=
  ∃ event ∈ journal, event.caller = caller ∧ event.writesSlot id = true

/-- The caller has created this deployment. -/
def Created (caller : Caller Command) (id : Uuid) (journal : List Event) : Prop :=
  ∃ event ∈ journal, event.caller = caller ∧
    event.created?.any (fun deployment => deployment.id == id) = true

/-- The caller may launch this deployment: it created it, or restarts it. -/
def MayLaunch (caller : Caller Command) (id : Uuid) (journal : List Event) : Prop :=
  match caller.command with
  | .create _ _ => Created caller id journal
  | .restart target _ _ => target = id ∧ Wrote caller id journal
  | .get _ | .stop _ => False

def Starting (state : State) (id : Uuid) : Prop :=
  ∃ slot, state.database.slot id = some slot ∧ slot.deployment.observedState = .starting

/-- A stop has saved STOPPING and may now release the recorded execution. -/
structure Slot.HaltedBy (slot : Slot) (service : ReactorService) (state : State) (engine : Engine)
    (executionRef endpointUrl : String) : Prop where
  stopping : slot.deployment.observedState = .stopping
  evidence : slot.executionRef = some executionRef
  address : ∃ endpoint, slot.endpoint = some endpoint ∧ endpoint.url = endpointUrl
  unreleased : ∀ exchange ∈ sinceWrite slot.deployment.id state.journal,
    exchange.stopReturned slot.deployment.id executionRef = false
  bound : service.engineFor slot.deployment.servingBindingId = .ok engine
  takes : (runtimeModelVersion slot.deployment).isSome = true →
    engine.takesModelVersion .stop = true

/-- An execution is released by the launch that started it, or by a stop that has
saved STOPPING, from the engine the deployment is bound to. -/
def PortCall.Lawful (service : ReactorService) (caller : Caller Command) (state : State)
    (engine : Engine) : PortCall → Prop
  | .inspect _ _ _ _ _ => True
  | .prepare id => Starting state id ∧ MayLaunch caller id state.journal
  | .start id _ _ _ =>
      Starting state id ∧ MayLaunch caller id state.journal ∧
        ∀ event ∈ state.journal, event.caller = caller →
          event.exchange?.any Exchange.starts = false
  | .verifyServedModel id _ _ _ => Starting state id
  | .stop executionRef endpointUrl id _ _ =>
      ∃ slot, state.database.slot id = some slot ∧
        ((slot.deployment.observedState = .starting ∧ MayLaunch caller id state.journal) ∨
          slot.HaltedBy service state engine executionRef endpointUrl)

/-- The write of a reconcile, which every command may make. -/
def Reconciles (old new : Slot) : Prop :=
  (old.deployment.observedState = .ready ∨ old.deployment.observedState = .degraded) ∧
    ∃ endpoint observation now, old.endpoint = some endpoint ∧
      new = ⟨reconciledDeployment old.deployment observation now,
        some (reconciledEndpoint endpoint observation now), old.executionRef⟩

theorem Reconciles.transition {old new : Slot} (reconciles : Reconciles old new) :
    Transition old new := by
  obtain ⟨live, endpoint, observation, now, stored, rfl⟩ := reconciles
  exact .reconciled live stored

/-- A restart writes first at the version it was asked for, and moves it on. -/
def MayWrite (caller : Caller Command) (journal : List Event) (old new : Slot) : Prop :=
  match caller.command with
  | .create _ _ => Created caller old.deployment.id journal ∨ Reconciles old new
  | .get target => target = old.deployment.id ∧ Reconciles old new
  | .stop target => target = old.deployment.id
  | .restart target _ version =>
      target = old.deployment.id ∧
        (Wrote caller target journal ∨
          (old.deployment.resourceVersion = version ∧ version < new.deployment.resourceVersion))

/-- The caller may stop this deployment, stored at this version. -/
def MayStop (caller : Caller Command) (id : Uuid) (journal : List Event) (version : Nat) : Prop :=
  match caller.command with
  | .stop target => target = id
  | .restart target _ expected => target = id ∧ (Wrote caller id journal ∨ version = expected)
  | .create _ _ | .get _ => False

theorem MayStop.mayWrite {caller : Caller Command} {journal : List Event} {old new : Slot}
    (may : MayStop caller old.deployment.id journal old.deployment.resourceVersion)
    (bumped : old.deployment.resourceVersion < new.deployment.resourceVersion) :
    MayWrite caller journal old new := by
  unfold MayStop at may
  unfold MayWrite
  cases command : caller.command with
  | stop target =>
      simp only [command] at may ⊢
      exact may
  | restart target nodeRef version =>
      simp only [command] at may ⊢
      obtain ⟨rfl, may⟩ := may
      exact ⟨rfl, may.imp_right fun current => ⟨current, current ▸ bumped⟩⟩
  | create request key | get target => simp only [command] at may

theorem MayStop.of_wrote {caller : Caller Command} {id : Uuid} {journal journal' : List Event}
    {version version' : Nat} (may : MayStop caller id journal version)
    (wrote : Wrote caller id journal') : MayStop caller id journal' version' := by
  unfold MayStop at may ⊢
  cases command : caller.command with
  | stop target =>
      simp only [command] at may ⊢
      exact may
  | restart target nodeRef expected =>
      simp only [command] at may ⊢
      exact ⟨may.1, .inl wrote⟩
  | create request key | get target => simp only [command] at may

theorem MayLaunch.mayWrite {caller : Caller Command} {journal : List Event} {old new : Slot}
    (may : MayLaunch caller old.deployment.id journal) : MayWrite caller journal old new := by
  unfold MayLaunch at may
  unfold MayWrite
  cases command : caller.command with
  | create request key =>
      simp only [command] at may ⊢
      exact .inl may
  | restart target nodeRef version =>
      simp only [command] at may ⊢
      obtain ⟨rfl, wrote⟩ := may
      exact ⟨rfl, .inl wrote⟩
  | get target | stop target => simp only [command] at may

structure LawfulWrite (caller : Caller Command) (journal : List Event) (old new : Slot) : Prop where
  transition : Transition old new
  allowed : MayWrite caller journal old new
  /-- STOPPED is written only after the recorded execution was released. -/
  released : new.deployment.observedState = .stopped → ∀ ref, old.executionRef = some ref →
    ∃ exchange ∈ sinceWrite old.deployment.id journal,
      exchange.stopReturned old.deployment.id ref = true
  /-- A write that keeps the version saves what a preparation just returned. -/
  announced : new.deployment.resourceVersion = old.deployment.resourceVersion →
    ∃ exchange ∈ sinceWrite old.deployment.id journal,
      exchange.announces old.deployment.id = true

def StoreOp.Lawful (service : ReactorService) (caller : Caller Command) (state : State) :
    StoreOp → Prop
  | .createIntent deployment key digest =>
      ∃ request now, caller.command = .create request key ∧
        digest = service.requestHash request ∧
        deployment = newDeployment request deployment.id now ∧
        (∃ engine, service.engineFor request.servingBindingId = .ok engine) ∧
        deployment.id ∈ issued state.journal ∧
        state.database.getDeployment deployment.id = none ∧
        ∀ event ∈ state.journal, event.caller = caller → event.created? = none
  | .saveDeployment deployment =>
      ∃ old, state.database.slot deployment.id = some old ∧
        deployment.endpointId = old.deployment.endpointId ∧
        LawfulWrite caller state.journal old { old with deployment }
  | .savePair deployment endpoint executionRef =>
      ∃ old, state.database.Fits old deployment endpoint ∧ endpoint.id ∈ issued state.journal ∧
        LawfulWrite caller state.journal old
          ⟨deployment, some endpoint, executionRef.or old.executionRef⟩
  | _ => True

def Op.Lawful (service : ReactorService) (caller : Caller Command) (state : State) : Op → Prop
  | .store op => op.Lawful service caller state
  | .port engine call => call.Lawful service caller state engine
  | .utcNow | .uuid4 | .activity _ => True

/-- How the operation of one event changes what is stored about one deployment. -/
inductive SlotStep (service : ReactorService) (event : Event) (journal : List Event) (id : Uuid) :
    Option Slot → Option Slot → Prop where
  | same {slot : Option Slot} (unwritten : event.writesSlot id = false) :
      SlotStep service event journal id slot slot
  | created {request : CreateDeploymentRequest} {key : Option String} {now : Datetime}
      (command : event.caller.command = .create request key)
      (bound : ∃ engine, service.engineFor request.servingBindingId = .ok engine)
      (creates : event.created? = some (newDeployment request id now)) :
      SlotStep service event journal id none (some ⟨newDeployment request id now, none, none⟩)
  | written {old new : Slot} (write : LawfulWrite event.caller journal old new)
      (writes : event.writesSlot id = true)
      (begins : event.beginsLaunch id = true → new.deployment.observedState = .starting)
      (evidence : new.executionRef = (event.evidence? id).or old.executionRef) :
      SlotStep service event journal id (some old) (some new)

theorem issued_after {state : State} {caller : Caller Command} {held : Bool} {op : Op}
    {answer : op.Answer} {id : Uuid} (drawn : id ∈ issued state.journal) :
    id ∈ issued (state.after caller held op answer).journal := by
  unfold State.after
  split
  · simp only [issued, List.filterMap_append, List.mem_append]
    exact .inl drawn
  · exact drawn

/-- An operation that leaves the three lifecycle tables alone. -/
def Op.sparing (op : Op) : Prop :=
  ∀ database, (op.effect database).deployments = database.deployments ∧
    (op.effect database).endpoints = database.endpoints ∧
    (op.effect database).executionEvidence = database.executionEvidence

theorem Database.Linked.congr {left right : Database} (linked : left.Linked)
    (deployments : right.deployments = left.deployments)
    (endpoints : right.endpoints = left.endpoints)
    (evidence : right.executionEvidence = left.executionEvidence) : right.Linked := by
  obtain ⟨owned, present, evidenced⟩ := linked
  constructor
  · rw [deployments, endpoints]
    exact owned
  · rw [deployments, endpoints]
    exact present
  · rw [deployments, evidence]
    exact evidenced

section Steps

variable {service : ReactorService} {caller : Caller Command} {state : State} {held : Bool}
variable {op : Op} {answer : op.Answer}

theorem Op.sparing.consistent (sparing : op.sparing) (consistent : Consistent state) :
    Consistent (state.after caller held op answer) := by
  obtain ⟨deployments, endpoints, evidence⟩ := sparing state.database
  refine ⟨consistent.linked.congr deployments endpoints evidence, ?_, ?_⟩
  · intro deployment member
    have old : deployment ∈ (op.effect state.database).deployments.rows := member
    rw [deployments] at old
    exact issued_after (consistent.deploymentIssued deployment old)
  · intro endpoint member
    have old : endpoint ∈ (op.effect state.database).endpoints.rows := member
    rw [endpoints] at old
    exact issued_after (consistent.endpointIssued endpoint old)

theorem Op.sparing.slot (sparing : op.sparing) (id : Uuid) :
    (state.after caller held op answer).database.slot id = state.database.slot id := by
  obtain ⟨deployments, endpoints, evidence⟩ := sparing state.database
  exact Database.slot_congr deployments endpoints evidence

theorem Op.sparing_of_not_writes {read : StoreOp} (reads : read.writes = false) :
    (Op.store read).sparing := fun database => by
  simp only [Op.effect, StoreOp.run_of_not_writes reads, and_self]

theorem Op.sparing_appendDeploymentEvent (deploymentId : Uuid) (phase : DeploymentPhase)
    (message : String) (occurredAt : Datetime) (failureCode : Option String) :
    (Op.store (.appendDeploymentEvent deploymentId phase message occurredAt failureCode)).sparing :=
  fun database => by
    obtain ⟨events, appended⟩ :=
      database.appendDeploymentEvent_spec deploymentId phase message occurredAt failureCode
    simp only [Op.effect, StoreOp.run, appended, and_self]

theorem Op.sparing_appendDeploymentDiagnostics (deploymentId : Uuid)
    (documents : List (List (String × JsonValue))) :
    (Op.store (.appendDeploymentDiagnostics deploymentId documents)).sparing :=
  fun _ => ⟨rfl, rfl, rfl⟩

/-- Every operation spares the lifecycle tables or is one of the three writes. -/
theorem Op.sparing_or_write (op : Op) :
    op.sparing ∨ (∃ deployment key digest, op = .store (.createIntent deployment key digest)) ∨
      (∃ deployment, op = .store (.saveDeployment deployment)) ∨
      ∃ deployment endpoint executionRef, op = .store (.savePair deployment endpoint executionRef) := by
  cases op with
  | utcNow | uuid4 | port engine call | activity call => exact .inl fun _ => ⟨rfl, rfl, rfl⟩
  | store op =>
      cases op with
      | getDeployment | getEndpoint | getExecutionRef | resolveIdempotency =>
          exact .inl (Op.sparing_of_not_writes rfl)
      | createIntent deployment key digest => exact .inr (.inl ⟨deployment, key, digest, rfl⟩)
      | saveDeployment deployment => exact .inr (.inr (.inl ⟨deployment, rfl⟩))
      | savePair deployment endpoint executionRef =>
          exact .inr (.inr (.inr ⟨deployment, endpoint, executionRef, rfl⟩))
      | appendDeploymentEvent => exact .inl (Op.sparing_appendDeploymentEvent _ _ _ _ _)
      | appendDeploymentDiagnostics => exact .inl (Op.sparing_appendDeploymentDiagnostics _ _)

/-- A lawful operation keeps the store consistent. -/
theorem Op.Lawful.consistent (lawful : op.Lawful service caller state)
    (consistent : Consistent state) : Consistent (state.after caller held op answer) := by
  rcases op.sparing_or_write with
    sparing | ⟨deployment, key, digest, rfl⟩ | ⟨deployment, rfl⟩ |
      ⟨deployment, endpoint, executionRef, rfl⟩
  · exact sparing.consistent consistent
  · obtain ⟨request, now, command, _, built, bound, drawn, _⟩ := lawful
    have unaddressed : deployment.endpointId = none := by rw [built]; rfl
    rcases state.database.createIntent_spec deployment key digest with
      ⟨_, unchanged⟩ | ⟨_, admits⟩
    · have same : (state.after caller held (.store (.createIntent deployment key digest))
          answer).database = state.database := unchanged
      refine ⟨same ▸ consistent.linked, ?_, ?_⟩
      · rw [same]
        exact fun row member => issued_after (consistent.deploymentIssued row member)
      · rw [same]
        exact fun row member => issued_after (consistent.endpointIssued row member)
    · have admitted : state.database.Admits deployment key digest (state.after caller held
          (.store (.createIntent deployment key digest)) answer).database := admits
      refine ⟨admitted.linked consistent.linked unaddressed, ?_, ?_⟩
      · intro row member
        rw [admitted.deployments, List.mem_append, List.mem_singleton] at member
        rcases member with old | rfl
        · exact issued_after (consistent.deploymentIssued row old)
        · exact issued_after drawn
      · intro row member
        rw [admitted.endpoints] at member
        exact issued_after (consistent.endpointIssued row member)
  · obtain ⟨old, here, kept, write⟩ := lawful
    refine ⟨consistent.linked.saveDeployment here kept, ?_, ?_⟩
    · intro row member
      rcases Relational.Table.mem_insertOrReplace.mp member with ⟨old, _⟩ | rfl
      · exact issued_after (consistent.deploymentIssued row old)
      · obtain ⟨found, key, _⟩ := Database.slot_eq_some here
        obtain ⟨stored, _⟩ := Database.getDeployment_mem found
        exact issued_after (key ▸ consistent.deploymentIssued _ stored)
    · exact fun row member => issued_after (consistent.endpointIssued row member)
  · obtain ⟨old, fits, drawn, write⟩ := lawful
    refine ⟨consistent.linked.savePair fits, ?_, ?_⟩
    · intro row member
      rcases Relational.Table.mem_insertOrReplace.mp member with ⟨old, _⟩ | rfl
      · exact issued_after (consistent.deploymentIssued row old)
      · obtain ⟨found, key, _⟩ := Database.slot_eq_some fits.here
        obtain ⟨stored, _⟩ := Database.getDeployment_mem found
        exact issued_after (key ▸ consistent.deploymentIssued _ stored)
    · intro row member
      rcases Relational.Table.mem_insertOrReplace.mp member with ⟨old, _⟩ | rfl
      · exact issued_after (consistent.endpointIssued row old)
      · exact issued_after drawn

/-- A lawful operation changes what is stored about at most one deployment, by a
step of the lifecycle. -/
theorem Op.Lawful.slotStep (lawful : op.Lawful service caller state)
    (consistent : Consistent state) (answers : Answers state op answer) (id : Uuid) :
    SlotStep service ⟨caller, op, answer⟩ state.journal id (state.database.slot id)
      ((state.after caller held op answer).database.slot id) := by
  cases op with
  | utcNow | uuid4 | port | activity => exact .same rfl
  | store op =>
      cases op with
      | getDeployment | getEndpoint | getExecutionRef | resolveIdempotency => exact .same rfl
      | appendDeploymentEvent =>
          rw [(Op.sparing_appendDeploymentEvent _ _ _ _ _).slot id]
          exact .same rfl
      | appendDeploymentDiagnostics =>
          rw [(Op.sparing_appendDeploymentDiagnostics _ _).slot id]
          exact .same rfl
      | createIntent deployment key digest =>
          obtain ⟨request, now, command, _, built, bound, _⟩ := lawful
          rcases state.database.createIntent_spec deployment key digest with
            ⟨refused, unchanged⟩ | ⟨accepted, admits⟩
          · have same : (state.after caller held (.store (.createIntent deployment key digest))
                answer).database = state.database := unchanged
            have silent : answer ≠ .ok none := fun accepted => refused (answers.symm.trans accepted)
            rw [same]
            refine .same ?_
            match answer, silent with
            | .ok none, silent => exact absurd rfl silent
            | .ok (some replay), _ => rfl
            | .error raised, _ => rfl
          · obtain rfl : answer = .ok none := answers.trans accepted
            have admitted : state.database.Admits deployment key digest (state.after caller held
                (.store (.createIntent deployment key digest)) (.ok none)).database := admits
            by_cases same : deployment.id = id
            · subst same
              have unaddressed : deployment.endpointId = none := by rw [built]; rfl
              have absent : state.database.slot deployment.id = none := by
                rw [Database.slot, admits.absent]
                rfl
              rw [absent, admitted.slot_self consistent.linked unaddressed]
              have creates : (Event.mk caller (.store (.createIntent deployment key digest))
                  (.ok none)).created? = some (newDeployment request deployment.id now) :=
                congrArg some built
              have step : SlotStep service ⟨caller, .store (.createIntent deployment key digest),
                  .ok none⟩ state.journal deployment.id none
                  (some ⟨newDeployment request deployment.id now, none, none⟩) :=
                .created command bound creates
              rw [← built] at step
              exact step
            · rw [admitted.slot_other same]
              exact .same (by simp [Event.writesSlot, Event.created?, same])
      | saveDeployment deployment =>
          obtain ⟨old, here, kept, write⟩ := lawful
          by_cases same : deployment.id = id
          · subst same
            have saved : (state.after caller held (.store (.saveDeployment deployment))
                answer).database.slot deployment.id = some { old with deployment } :=
              Database.slot_saveDeployment_self here kept
            rw [here, saved]
            exact .written write (by simp [Event.writesSlot])
              (by simp [Event.beginsLaunch]) rfl
          · have other : (state.after caller held (.store (.saveDeployment deployment))
                answer).database.slot id = state.database.slot id :=
              Database.slot_saveDeployment_other same
            rw [other]
            exact .same (by simp [Event.writesSlot, same])
      | savePair deployment endpoint executionRef =>
          obtain ⟨old, fits, drawn, write⟩ := lawful
          by_cases same : deployment.id = id
          · subst same
            have saved : (state.after caller held
                (.store (.savePair deployment endpoint executionRef)) answer).database.slot
                deployment.id = some ⟨deployment, some endpoint, executionRef.or old.executionRef⟩ :=
              Database.Linked.slot_savePair_self fits
            rw [fits.here, saved]
            exact .written write (by simp [Event.writesSlot])
              (by simp [Event.beginsLaunch, Event.created?]) (by simp [Event.evidence?])
          · have other : (state.after caller held
                (.store (.savePair deployment endpoint executionRef)) answer).database.slot id =
                state.database.slot id := consistent.linked.slot_savePair_other fits same
            rw [other]
            exact .same (by simp [Event.writesSlot, same])

end Steps

end CyreneReactor
