import CyreneReactor.Guarantees.RemoteFailures
import CyreneReactor.Lifecycle.Discipline
import CyreneReactor.Lifecycle.Verdicts
import CyreneReactor.Service.Script

namespace CyreneReactor

open Interaction ReactorService

/-! Every launch reaches a durable verdict, as far as its answers conclude it. -/

variable {environment : Environment} {service : ReactorService}

/-- A command that ran alone from `start` to `finish`, and what it left in the journal. -/
structure Completed (environment : Environment) (service : ReactorService) (index : Nat)
    (command : Command) (result : Except Raised Deployment) (start finish : State)
    (own : List Event) : Prop where
  serial : Serial environment service start
  unseen : Unseen index start
  ran : Alone environment service ⟨index, command⟩ 0 (service.body command).attempt start
    0 (.pure result) finish
  grown : finish.journal = start.journal ++ own

section Completing

variable {index : Nat} {command : Command} {result : Except Raised Deployment}
variable {start finish : State} {own : List Event}

theorem Completed.consistent (completed : Completed environment service index command result start
    finish own) : Consistent start :=
  completed.serial.consistent

theorem Completed.served (completed : Completed environment service index command result start
    finish own) (locks : ∀ id, command ≠ .get id) :
    Served environment service ⟨index, command⟩ start result finish ∧
      Evolves environment service start finish := by
  have ran := completed.ran
  rw [service.body_eq_locked locks] at ran
  have section' : Section service start ⟨index, command⟩ (service.underLock command) :=
    .command locks
  exact section'.served completed.consistent completed.unseen ran

/-- A command that is over, and does more than read, ran alone at some time. -/
theorem Reached.completed {pool next : Pool (service.system environment)}
    (reached : Reached environment service pool) (run : Relation.ReflTransGen Step pool next)
    {depth : Nat} (started : pool.threads.length ≤ index)
    (found : next.threads[index]? = some ⟨command, depth, .pure result⟩)
    (locks : ∀ id, command ≠ .get id) :
    ∃ start finish own, Evolves environment service pool.state start ∧
      Evolves environment service finish next.state ∧
      Completed environment service index command result start finish own := by
  obtain ⟨finish, after, finished⟩ := reached.finished run started found
  rcases finished with ⟨id, read⟩ | ⟨start, before, serial, unseen, ran⟩
  · exact absurd read (locks id)
  have completed : ∀ own, finish.journal = start.journal ++ own →
      Completed environment service index command result start finish own :=
    fun own grown => ⟨serial, unseen, ran, grown⟩
  have ran' := ran
  rw [service.body_eq_locked locks] at ran'
  have section' : Section service start ⟨index, command⟩ (service.underLock command) :=
    .command locks
  rcases (section'.served serial.consistent unseen ran').1 with idle | ⟨_, inside⟩
  · obtain ⟨own, grown, _⟩ := idle.grown
    exact ⟨start, finish, own, before, after, completed own grown⟩
  · obtain ⟨own, grown, _⟩ := inside.grown
    exact ⟨start, finish, own, before, after, completed own grown⟩

end Completing

/-- Every stored deployment is bound to an engine. -/
theorem Evolves.bound {state : State} {id : Uuid} {slot : Slot}
    (evolves : Evolves environment service State.initial state)
    (here : state.database.slot id = some slot) :
    ∃ engine, service.engineFor slot.deployment.servingBindingId = .ok engine := by
  have every : Consistent state ∧ ∀ id slot, state.database.slot id = some slot →
      ∃ engine, service.engineFor slot.deployment.servingBindingId = .ok engine := by
    refine evolves.invariant (fun state => ∀ id slot, state.database.slot id = some slot →
      ∃ engine, service.engineFor slot.deployment.servingBindingId = .ok engine) ?_
      initial_consistent (fun _ _ here => by cases here)
    intro caller op state answer _ consistent before _ answers lawful id slot here
    have step : SlotStep service ⟨caller, op, answer⟩ state.journal id (state.database.slot id)
        ((state.after caller true op answer).database.slot id) :=
      lawful.slotStep consistent answers id
    rw [here] at step
    generalize found : state.database.slot id = old at step
    cases step with
    | same => exact before id slot found
    | created _ bound => exact bound
    | written write =>
        rw [write.transition.served.1]
        exact before id _ found
  exact every.2 id slot here

/-- STARTING is saved over STOPPED, and moves the version on. -/
theorem Transition.begins {old : Slot} {deployment : Deployment}
    (transition : Transition old { old with deployment })
    (starting : deployment.observedState = .starting) :
    old.deployment.observedState = .stopped ∧
      old.deployment.resourceVersion < deployment.resourceVersion := by
  generalize written : ({ old with deployment } : Slot) = new at transition
  have document : deployment = new.deployment := congrArg Slot.deployment written
  cases transition with
  | @prepared endpoint _ _ follows _ =>
      -- The endpoint would be its own next version.
      have next := (follows.next endpoint (congrArg Slot.endpoint written)).2.2
      omega
  | restarted stopped =>
      rw [document]
      exact ⟨stopped, Nat.lt_succ_self _⟩
  | ready | failed | failedWithEvidence | stopping | stopped =>
      rw [document] at starting
      cases starting
  | @reconciled endpoint observation now =>
      simp only [document, reconciledDeployment, observedOf] at starting
      split at starting <;> cases starting

/-- What a launch that began says about the deployment: it was new or stopped. -/
structure Begun (before after : Option Slot) : Prop where
  starting : ∃ slot, after = some slot ∧ slot.deployment.observedState = .starting
  moved : ∀ old, before = some old → ∀ slot, after = some slot →
    old.deployment.observedState = .stopped ∧
      old.deployment.resourceVersion < slot.deployment.resourceVersion

theorem Op.Lawful.begun {caller : Caller Command} {op : Op} {state : State} {answer : op.Answer}
    {id : Uuid} (lawful : op.Lawful service caller state) (consistent : Consistent state)
    (answers : Answers state op answer)
    (begins : (Event.mk caller op answer).beginsLaunch id = true) :
    Begun (state.database.slot id) ((state.after caller true op answer).database.slot id) := by
  have step : SlotStep service ⟨caller, op, answer⟩ state.journal id (state.database.slot id)
      ((state.after caller true op answer).database.slot id) :=
    lawful.slotStep consistent answers id
  cases op with
  | utcNow | uuid4 | port | activity => cases begins
  | store op =>
      cases op with
      | saveDeployment deployment =>
          simp only [Event.beginsLaunch, Bool.and_eq_true, beq_iff_eq] at begins
          obtain ⟨rfl, starting⟩ := begins
          obtain ⟨old, here, kept, write⟩ := lawful
          have saved : (state.after caller true (.store (.saveDeployment deployment))
              answer).database.slot deployment.id = some { old with deployment } :=
            Database.slot_saveDeployment_self here kept
          refine ⟨⟨_, saved, starting⟩, fun old' there slot after => ?_⟩
          rw [here, Option.some.injEq] at there
          rw [saved, Option.some.injEq] at after
          subst there after
          exact write.transition.begins starting
      | createIntent deployment key digest =>
          -- An intent is only admitted for an id that is not stored yet.
          obtain ⟨_, _, _, _, _, _, _, absent, _⟩ := lawful
          rcases answer with raised | _ | other
          · cases begins
          · obtain rfl : deployment.id = id := beq_iff_eq.mp begins
            have fresh : state.database.slot deployment.id = none := by
              rw [Database.slot, absent]
              rfl
            rw [fresh] at step ⊢
            generalize (state.after caller true (.store (.createIntent deployment key digest))
              (.ok none)).database.slot deployment.id = after at step
            cases step with
            | same unwritten =>
                rw [Event.writesSlot_of_beginsLaunch begins] at unwritten
                cases unwritten
            | created => exact ⟨⟨_, rfl, rfl⟩, fun old none => by cases none⟩
          · cases begins
      | savePair | getDeployment | getEndpoint | getExecutionRef | resolveIdempotency
      | appendDeploymentEvent | appendDeploymentDiagnostics => cases begins

/-- How far a launch that began since has moved the version of a deployment: a running one
was stopped first. -/
def Outdated (old new : Slot) : Prop :=
  old.deployment.resourceVersion < new.deployment.resourceVersion ∧
    (old.deployment.observedState ≠ .stopped →
      old.deployment.resourceVersion + 1 < new.deployment.resourceVersion)

theorem Begun.outdated {old stopped new : Slot}
    (transitions : Relation.ReflTransGen Transition old stopped)
    (begun : Begun (some stopped) (some new)) : Outdated old new := by
  obtain ⟨ended, moved⟩ := begun.moved stopped rfl new rfl
  have grown := Transition.versions transitions
  refine ⟨by omega, fun running => ?_⟩
  have bumped : old.deployment.resourceVersion ≠ stopped.deployment.resourceVersion := by
    intro same
    rcases Transition.unnoticed transitions same.symm with rfl | ⟨_, starting⟩
    · exact running ended
    · rw [starting] at ended
      cases ended
  omega

theorem Evolves.begun {start finish : State} {own : List Event} {event : Event} {id : Uuid}
    (evolves : Evolves environment service start finish) (consistent : Consistent start)
    (grown : finish.journal = start.journal ++ own) (member : event ∈ own)
    (begins : event.beginsLaunch id = true) :
    ∃ new, finish.database.slot id = some new ∧
      ∀ old, start.database.slot id = some old → Outdated old new := by
  have held := evolves.invariant (fun state => ∃ events, state.journal = start.journal ++ events ∧
      (∀ old, start.database.slot id = some old → ∃ now, state.database.slot id = some now ∧
        Relation.ReflTransGen Transition old now) ∧
      ((∃ event ∈ events, event.beginsLaunch id = true) →
        ∃ new, state.database.slot id = some new ∧
          ∀ old, start.database.slot id = some old → Outdated old new))
    ?_ consistent
    ⟨[], (List.append_nil _).symm, fun old here => ⟨old, here, .refl⟩, fun begun => by
      obtain ⟨_, member, _⟩ := begun
      exact absurd member List.not_mem_nil⟩
  · obtain ⟨_, events, grown', _, begun⟩ := held
    rw [grown, List.append_cancel_left_eq] at grown'
    subst grown'
    exact begun ⟨event, member, begins⟩
  rintro caller op state answer recorded consistent ⟨events, grown, moved, begun⟩ _ answers lawful
  have step : SlotStep service ⟨caller, op, answer⟩ state.journal id (state.database.slot id)
      ((state.after caller true op answer).database.slot id) :=
    lawful.slotStep consistent answers id
  refine ⟨events ++ [⟨caller, op, answer⟩],
    by rw [State.after_recorded recorded, grown, List.append_assoc], fun old here => ?_,
    fun launched => ?_⟩
  · obtain ⟨now, there, transitions⟩ := moved old here
    rw [there] at step
    generalize (state.after caller true op answer).database.slot id = after at step
    cases step with
    | same => exact ⟨now, rfl, transitions⟩
    | written write => exact ⟨_, rfl, transitions.tail write.transition⟩
  · by_cases first : (Event.mk caller op answer).beginsLaunch id = true
    · have begins := lawful.begun consistent answers first
      obtain ⟨new, after, _⟩ := begins.starting
      refine ⟨new, after, fun old here => ?_⟩
      obtain ⟨now, there, transitions⟩ := moved old here
      rw [there, after] at begins
      exact begins.outdated transitions
    · have earlier : ∃ event ∈ events, event.beginsLaunch id = true := by
        obtain ⟨event, member, begins⟩ := launched
        rcases List.mem_append.mp member with earlier | last
        · exact ⟨event, earlier, begins⟩
        · rw [List.mem_singleton.mp last] at begins
          exact absurd begins first
      obtain ⟨new, there, outdated⟩ := begun earlier
      rw [there] at step
      generalize (state.after caller true op answer).database.slot id = after at step
      cases step with
      | same => exact ⟨new, rfl, outdated⟩
      | @written _ new' write =>
          refine ⟨new', rfl, fun old here => ?_⟩
          have later := write.transition.version_le
          obtain ⟨moved, running⟩ := outdated old here
          refine ⟨by omega, fun unstopped => ?_⟩
          have further := running unstopped
          omega

/-- The calls of a command that launched the deployment, the release of a restart first. -/
inductive Launched (environment : Environment) (service : ReactorService) (before : Option Slot)
    (result : Except Raised Deployment) (new : Slot) : List Exchange → Prop where
  | intro {slot : Slot} {release made : List Exchange}
      (released : ∀ exchange ∈ release, exchange.Harmless ∧ exchange.announced? = none)
      (evidence : slot.executionRef = before.bind Slot.executionRef)
      (starting : slot.deployment.observedState = .starting)
      (bound : ∃ engine, service.engineFor slot.deployment.servingBindingId = .ok engine)
      (launches : Launches environment service slot made new result) :
      Launched environment service before result new (release ++ made)

/-- The commands that launch. -/
def Command.launches : Command → Prop
  | .create _ _ | .restart _ _ _ => True
  | .get _ | .stop _ => False

theorem Launched.of_create {request : CreateDeploymentRequest} {id : Uuid} {now : Datetime}
    {calls : List Exchange} {new : Slot} {result : Except Raised Deployment}
    (bound : ∃ engine, service.engineFor request.servingBindingId = .ok engine)
    (launches : Launches environment service ⟨newDeployment request id now, none, none⟩ calls new
      result) :
    Launched environment service none result new ([] ++ calls) :=
  .intro (fun _ member => absurd member List.not_mem_nil) rfl rfl bound launches

theorem Launched.of_restart {nodeRef : NodeRef} {now : Datetime} {slot stopped new : Slot}
    {release calls : List Exchange} {result : Except Raised Deployment}
    (bound : ∃ engine, service.engineFor slot.deployment.servingBindingId = .ok engine)
    (stops : Stops environment service slot release stopped (.ok stopped.deployment))
    (launches : Launches environment service (stopped.starting nodeRef now) calls new result) :
    Launched environment service (some slot) result new (release ++ calls) := by
  obtain ⟨harmless, evidence⟩ := stops.harmless
  have kept : stopped.deployment.servingBindingId = slot.deployment.servingBindingId := by
    cases stops <;> rfl
  refine .intro harmless ?_ ?_ ?_ launches
  · exact evidence
  · rfl
  · rw [Slot.starting, startingDeployment, kept]
    exact bound

section Launching

variable {index : Nat} {command : Command} {result : Except Raised Deployment}
variable {start finish : State} {own : List Event} {id : Uuid}

/-- A create or restart that saved STARTING launched. -/
theorem Completed.launched
    (completed : Completed environment service index command result start finish own)
    (launching : command.launches) {event : Event} (member : event ∈ own)
    (begins : event.beginsLaunch id = true) :
    ∃ new, finish.database.slot id = some new ∧
      Launched environment service (start.database.slot id) result new (exchanges own) := by
  have locks : ∀ id, command ≠ .get id := by
    rintro id rfl
    exact launching
  obtain ⟨served, evolves⟩ := completed.served locks
  obtain ⟨new, there, outdated⟩ := evolves.begun completed.consistent completed.grown member begins
  have unmoved : start.database.slot id ≠ some new := fun same =>
    Nat.lt_irrefl _ (outdated new same).1
  refine ⟨new, there, ?_⟩
  cases served with
  | idle idle => exact absurd (idle.untouched ▸ there) unmoved
  | @committed target new' calls recent commits inside =>
      obtain ⟨events, grown, made⟩ := inside.grown
      rw [completed.grown, List.append_cancel_left_eq] at grown
      subst grown
      obtain rfl : id = target := by
        by_contra different
        exact unmoved ((inside.elsewhere id different).symm.trans there)
      obtain rfl : new' = new := Option.some.inj (inside.here.symm.trans there)
      rw [made]
      generalize found : start.database.slot id = before at commits outdated unmoved
      cases commits with
      | created bound launches => exact .of_create bound launches
      | @replayed _ _ _ old _ _ _ reads =>
          cases reads with
          | unchanged => exact absurd rfl unmoved
          | reconciled _ reconciles =>
              obtain ⟨live, endpoint, observation, now, _, rfl⟩ := reconciles
              have running : old.deployment.observedState ≠ .stopped := by
                rcases live with live | live <;> rw [live] <;> decide
              have moved := (outdated old rfl).2 running
              exact absurd moved (Nat.lt_irrefl _)
      | @restarted _ nodeRef version old _ _ _ restarts =>
          have bound := completed.serial.evolves.bound found
          cases restarts with
          | conflict => exact absurd rfl unmoved
          | kept _ stops =>
              cases stops with
              | kept running =>
                  have moved := (outdated old rfl).2 running
                  exact absurd moved (Nat.lt_irrefl _)
          | relaunched _ stops launches => exact .of_restart bound stops launches
      | stopped | reconciled => exact launching.elim

/-- A launch is settled exactly where its answers conclude it, and STARTING else. -/
theorem Launched.settled {before : Option Slot} {new : Slot} {calls : List Exchange}
    (launched : Launched environment service before result new calls) :
    (new.Settled ↔ Concludes calls) ∧
      (new.deployment.observedState = .starting ↔ ¬Concludes calls) := by
  obtain ⟨released, _, starting, bound, launches⟩ := launched
  rw [concludes_append fun exchange member => (released exchange member).1]
  exact launches.settled starting bound

end Launching

section Hosting

open Remote

/-- What the remote port answers to a call of the service, from the replies of its host. -/
def remoteAnswer (port : RemoteServingExecutionPort) (replies : Nat → HttpReply) :
    (call : PortCall) → call.Answer
  | .prepare id => .ok (some (port.prepare id))
  | .start id model node version => (exchange replies (port.start id model node version).run 0).1
  | .verifyServedModel id reference url served =>
      (exchange replies (port.verifyServedModel id reference url served).run 0).1
  | .inspect reference url id digest version =>
      (exchange replies (port.inspect reference url id digest version).run 0).1
  | .stop reference _ id digest version =>
      (exchange replies (port.stop reference id digest version).run 0).1

/-- Every engine is the remote port of its name, whatever its host replies. -/
def hosted (ports : String → RemoteServingExecutionPort) : Environment := fun _ op answer =>
  match op, answer with
  | .port engine call, answer => ∃ replies, answer = remoteAnswer (ports engine.name) replies call
  | _, _ => True

/-- The remote port takes every keyword and verifies what it started. -/
def Engine.remote (name : String) : Engine := ⟨name, true, true, true, true⟩

/-- All bindings of the service are remote. -/
def ReactorService.Remote (service : ReactorService) : Prop :=
  ∀ binding engine, service.engineFor binding = .ok engine → engine = .remote engine.name

/-- No call is left past the handler, and the address of what was started can be saved. -/
structure RemoteConcludes (calls : List Exchange) : Prop where
  caught : ∀ exchange ∈ calls, exchange.escapes = false
  addressed : ∀ exchange ∈ calls, ∀ handle, exchange.started? = some handle →
    handle.referencesEncode = true

variable {ports : String → RemoteServingExecutionPort} {slot new : Slot} {calls : List Exchange}

theorem Hosted.replied {exchange : Exchange} (admits : (hosted ports).Admits slot exchange) :
    ∃ replies, exchange.answer =
      remoteAnswer (ports exchange.engine.name) replies exchange.call :=
  admits.choose_spec.2

theorem servedName_ne_empty {id : Uuid} : servedName id ≠ "" := by
  intro same
  have chars := congrArg String.toList same
  simp [servedName] at chars

theorem servedName_storable {handle : EngineHandle} {id : Uuid}
    (named : handle.model = some (servedName id)) (encodes : handle.encodes = true) :
    handle.storable = true := by
  simp [EngineHandle.storable, encodes, named, servedName_ne_empty]

/-- A remote start returned the model it was asked for. -/
theorem Hosted.started {engine : Engine} {model : ArtifactRef}
    {version : Option ModelVersionDocument} {handle : EngineHandle}
    (admits : (hosted ports).Admits slot
      ⟨engine, startCall slot.deployment model version, .ok handle⟩)
    (addressed : handle.referencesEncode = true) : handle.storable = true := by
  obtain ⟨replies, answered⟩ := Hosted.replied admits
  have encodes := start_encodes answered.symm
  refine servedName_storable (start_returned answered.symm).2.1 ?_
  rw [EngineHandle.encodes, encodes.1, addressed]
  rfl

/-- The readback of a remote start names its execution, with its address. -/
theorem Hosted.unverified {engine : Engine} {model : ArtifactRef}
    {version : Option ModelVersionDocument} {handle : EngineHandle} {readback : List Exchange}
    {failure : ServingEngineFailure}
    (admits : (hosted ports).Admits slot
      ⟨engine, startCall slot.deployment model version, .ok handle⟩)
    (verifies : Verifies (hosted ports) slot engine handle readback (.error (.serving failure)))
    (storable : failure.storable = true) : handle.referencesEncode = true := by
  cases verifies with
  | called offered verified =>
      obtain ⟨replies, answered⟩ := Hosted.replied admits
      obtain ⟨again, failed⟩ := Hosted.replied verified
      obtain ⟨execution, address, references⟩ := verify_failure failed.symm
      have named : failure.execution = some handle.executionRef := by
        rw [ServingEngineFailure.execution, address, execution]
        rfl
      rw [ServingEngineFailure.storable, named, Bool.and_eq_true] at storable
      have encodes : failure.referencesEncode = true := by simpa using storable.2
      exact ((start_encodes answered.symm).2.trans references.symm).trans encodes

section Concluding

variable {engine : Engine} {model : ArtifactRef} {version : Option ModelVersionDocument}
variable {handle : EngineHandle} {made : List Exchange}

theorem remoteConcludes_append (harmless : ∀ exchange ∈ calls, exchange.Harmless) :
    RemoteConcludes (calls ++ made) ↔ RemoteConcludes made := by
  constructor
  · rintro ⟨caught, addressed⟩
    exact ⟨fun exchange member => caught exchange (List.mem_append_right _ member),
      fun exchange member => addressed exchange (List.mem_append_right _ member)⟩
  · rintro ⟨caught, addressed⟩
    refine ⟨fun exchange member => ?_, fun exchange member handle started => ?_⟩
    · rcases List.mem_append.mp member with earlier | later
      · exact (harmless exchange earlier).caught
      · exact caught exchange later
    · rcases List.mem_append.mp member with earlier | later
      · rw [(harmless exchange earlier).unstarted] at started
        cases started
      · exact addressed exchange later handle started

theorem remoteConcludes_started (unstarted : ∀ exchange ∈ calls, exchange.started? = none) :
    RemoteConcludes (⟨engine, startCall slot.deployment model version, .ok handle⟩ :: calls) ↔
      (∀ exchange ∈ calls, exchange.escapes = false) ∧ handle.referencesEncode = true := by
  constructor
  · rintro ⟨caught, addressed⟩
    exact ⟨fun exchange member => caught exchange (List.mem_cons_of_mem _ member),
      addressed _ List.mem_cons_self handle rfl⟩
  · rintro ⟨caught, encodes⟩
    refine ⟨fun exchange member => ?_, fun exchange member other started => ?_⟩
    · rcases List.mem_cons.mp member with rfl | later
      · rfl
      · exact caught exchange later
    · rcases List.mem_cons.mp member with rfl | later
      · cases started
        exact encodes
      · rw [unstarted exchange later] at started
        cases started

/-- A remote start was addressed, unless its readback is kept from it. -/
theorem Hosted.concludes (remote : engine = .remote engine.name)
    (admits : (hosted ports).Admits slot
      ⟨engine, startCall slot.deployment model version, .ok handle⟩)
    (unstarted : ∀ exchange ∈ calls, exchange.started? = none)
    (unverified : Unverified calls → (∀ exchange ∈ calls, exchange.escapes = false) →
      handle.referencesEncode = true) :
    Concludes (⟨engine, startCall slot.deployment model version, .ok handle⟩ :: calls) ↔
      RemoteConcludes (⟨engine, startCall slot.deployment model version, .ok handle⟩ :: calls) := by
  rw [concludes_started unstarted, remoteConcludes_started unstarted]
  constructor
  · rintro ⟨caught, _, failed | ⟨saved, mistaken⟩⟩
    · exact ⟨caught, unverified failed caught⟩
    · refine ⟨caught, ?_⟩
      by_cases identified : Identified version handle
      · have storable := saved identified
        simp only [EngineHandle.storable, EngineHandle.encodes, Bool.and_eq_true] at storable
        exact storable.1.1
      · exact mistaken identified
  · rintro ⟨caught, encodes⟩
    refine ⟨caught, fun _ _ => ?_, .inr ⟨fun _ => Hosted.started admits encodes, fun _ => encodes⟩⟩
    rw [remote]
    rfl

end Concluding

/-- An attempt concludes where none of its calls escapes and its address can be saved. -/
theorem Hosted.attempts {engine : Engine} {model : ArtifactRef}
    {version : Option ModelVersionDocument} {verdict : Verdict} (remote : engine = .remote engine.name)
    (attempts : Attempts (hosted ports) slot engine model version calls verdict) :
    Concludes calls ↔ RemoteConcludes calls := by
  cases attempts with
  | unsupported => exact iff_of_true concludes_nil ⟨by simp, by simp⟩
  | refused =>
      refine ⟨fun concludes => ⟨concludes.caught, fun exchange member handle started => ?_⟩,
        fun concludes => concludes_of_harmless fun exchange member => ?_⟩
      · rw [List.mem_singleton.mp member] at started
        cases started
      · have caught := concludes.caught exchange member
        rw [List.mem_singleton.mp member] at caught ⊢
        exact ⟨caught, rfl, rfl⟩
  | mismatched admits composed other cleans =>
      have quiet := cleans.caught.1
      refine Hosted.concludes remote admits (fun exchange member => (quiet exchange member).1) ?_
      rintro ⟨exchange, member, failed⟩
      rw [(quiet exchange member).2] at failed
      cases failed
  | @interrupted handle readback raised admits identified verifies uncaught =>
      cases verifies with
      | called offered verified =>
          refine Hosted.concludes remote admits (by simp [Exchange.started?]) fun _ caught => ?_
          have escaped := caught _ (List.mem_singleton_self _)
          rcases raised with error | failure | kind
          · cases escaped
          · exact absurd rfl (uncaught failure)
          · cases escaped
  | @unverified handle readback cleanup failure outcome admits identified verifies cleans =>
      have quiet := cleans.caught.1
      refine Hosted.concludes remote admits (fun exchange member => ?_) fun _ caught => ?_
      · rcases List.mem_append.mp member with first | later
        · cases verifies with
          | called =>
              rw [List.mem_singleton.mp first]
              rfl
        · exact (quiet exchange later).1
      · refine Hosted.unverified admits verifies ?_
        cases verifies with
        | called =>
            have escaped := caught _ (List.mem_append_left _ (List.mem_singleton_self _))
            simpa [Exchange.escapes] using escaped
  | verified admits identified verifies =>
      cases verifies with
      | absent => exact Hosted.concludes remote admits (by simp) (by simp [Unverified])
      | called =>
          exact Hosted.concludes remote admits (by simp [Exchange.started?])
            (by simp [Unverified, Exchange.unverified?])

/-- A remote preparation is never refused. -/
theorem Hosted.prepares {outcome : Except Raised Unit}
    (bound : ∃ engine, service.engineFor slot.deployment.servingBindingId = .ok engine)
    (prepares : Prepares (hosted ports) service slot calls new outcome) : outcome = .ok () := by
  cases prepares with
  | unbound unbound =>
      obtain ⟨engine, bound⟩ := bound
      rw [bound] at unbound
      cases unbound
  | refused _ admits =>
      obtain ⟨_, answered⟩ := Hosted.replied admits
      cases answered
  | nothing | pending => rfl
  | @unsaved engine handle _ admits unsaved =>
      obtain ⟨_, answered⟩ := Hosted.replied admits
      have same : handle = (ports engine.name).prepare slot.deployment.id :=
        Option.some.inj (Except.ok.inj answered)
      rw [same, servedName_storable rfl rfl] at unsaved
      cases unsaved

/-- A launch of remote executions concludes where none of its calls escapes and what it
started can be saved. -/
theorem Hosted.launched {before : Option Slot} {result : Except Raised Deployment}
    (remote : service.Remote)
    (launched : Launched (hosted ports) service before result new calls) :
    Concludes calls ↔ RemoteConcludes calls := by
  obtain ⟨released, _, _, bound, launches⟩ := launched
  have released := fun exchange member => (released exchange member).1
  rw [concludes_append released, remoteConcludes_append released]
  cases launches with
  | unprepared prepares =>
      have ended := Hosted.prepares bound prepares
      cases ended
  | launched prepares bound' _ attempts _ =>
      rw [concludes_append prepares.harmless.1, remoteConcludes_append prepares.harmless.1]
      exact Hosted.attempts (remote _ _ bound') attempts

end Hosting

/-- What a create or restart started after `pool` and over in `last` left of the
deployments it saved STARTING. -/
structure LaunchesSettled (environment : Environment) (service : ReactorService)
    (pool last : Pool (service.system environment)) : Prop where
  finished : ∀ {index depth : Nat} {command : Command} {result : Except Raised Deployment},
    pool.threads.length ≤ index → last.threads[index]? = some ⟨command, depth, .pure result⟩ →
    command.launches →
    ∃ start finish own, Evolves environment service pool.state start ∧
      Evolves environment service finish last.state ∧
      Completed environment service index command result start finish own ∧
      ∀ id, (∃ event ∈ own, event.beginsLaunch id = true) →
        ∃ slot, finish.database.slot id = some slot ∧
          (slot.Settled ↔ Concludes (exchanges own)) ∧
          (slot.deployment.observedState = .starting ↔ ¬Concludes (exchanges own)) ∧
          ∀ ports, environment = hosted ports → service.Remote →
            (slot.Settled ↔ RemoteConcludes (exchanges own))

/-- What the operations of a launch raise, whatever the host of the remote port replies:
failures of the engine, but where a request raises what no operation catches or a stop
cannot confirm the version. -/
structure RemoteRaises (port : Remote.RemoteServingExecutionPort)
    (replies : Nat → Remote.HttpReply) : Prop where
  start : ∀ id model node version,
    ¬Outcome.Raises Remote.Serving
        (Remote.exchange replies (port.start id model node version).run 0).1 ↔
      Remote.Unhandled (Remote.exchange replies (port.start id model node version).run 0).2
  verify : ∀ {started : Nat → Remote.HttpReply} {id model node version} {handle : EngineHandle},
    (Remote.exchange started (port.start id model node version).run 0).1 = .ok handle →
    (¬Outcome.Raises Remote.Serving (Remote.exchange replies
        (port.verifyServedModel id handle.executionRef handle.endpointUrl handle.model).run 0).1 ↔
      Remote.Unhandled (Remote.exchange replies
        (port.verifyServedModel id handle.executionRef handle.endpointUrl handle.model).run 0).2)
  stop : ∀ reference id digest version,
    ¬Outcome.Raises Remote.Serving
        (Remote.exchange replies (port.stop reference id digest version).run 0).1 ↔
      Remote.Unhandled
          (Remote.exchange replies (port.stop reference id digest version).run 0).2 ∨
      reference = id.str ∧
        (Remote.exchange replies (port.confirmVersion id digest version).run 0).1 =
          .error Remote.valueError

/-- Launches end READY or FAILED exactly where their answers conclude them. -/
theorem launches_reach_a_verdict_iff (environment : Environment) (service : ReactorService)
    {pool last : Pool (service.system environment)} (reached : Reached environment service pool)
    (run : Relation.ReflTransGen Step pool last) (port : Remote.RemoteServingExecutionPort)
    {replies : Nat → Remote.HttpReply} (replied : ∀ count, Remote.Replied (replies count)) :
    LaunchesSettled environment service pool last ∧ RemoteRaises port replies := by
  constructor
  · constructor
    intro index depth command result started found launching
    have locks : ∀ id, command ≠ .get id := by
      rintro id rfl
      exact launching
    obtain ⟨start, finish, own, before, after, completed⟩ :=
      reached.completed run started found locks
    refine ⟨start, finish, own, before, after, completed, fun id begun => ?_⟩
    obtain ⟨event, member, begins⟩ := begun
    obtain ⟨slot, here, launched⟩ := completed.launched launching member begins
    refine ⟨slot, here, launched.settled.1, launched.settled.2, fun ports plugged remote => ?_⟩
    subst plugged
    rw [launched.settled.1]
    exact Hosted.launched remote launched
  · refine ⟨fun id model node version => Remote.start_escapes_iff replied, fun returned => ?_,
      fun reference id digest version => Remote.stop_escapes_iff replied⟩
    exact Remote.verify_escapes_iff replied (Remote.start_returned returned).2.2

/-- One create, run to its end with these answers. -/
def Sample.created (engine : Engine) (replies : Replies) :
    Pool (({ Sample.service with engine } : ReactorService).system .unrestricted) :=
  rehearse replies.engines (fun _ _ => trivial) 40 (.create Sample.request none)
    (Pool.initial State.initial)

theorem launches_reach_a_verdict_sampled :
    LaunchesSettled .unrestricted Sample.service (Pool.initial State.initial)
        (Sample.created Sample.engine Sample.replies) ∧
      RemoteRaises Remote.hostPort fun _ => Remote.hostAnswer "model" :=
  launches_reach_a_verdict_iff .unrestricted Sample.service .refl
    (rehearse_reaches (Pool.initial_quiescent _)) Remote.hostPort
    fun _ _ answered => by cases answered

/-- The readback of a started execution fails. -/
def Sample.unreadable : ServingEngineFailure where
  detail := "no such model"
  status := 409

/-- The create is over and its deployment is STARTING. -/
def Sample.LeftStarting (engine : Engine) (replies : Replies) : Prop :=
  Reached .unrestricted _ (Sample.created engine replies) ∧
    (Sample.created engine replies).Quiescent ∧
    ((State.database (Sample.created engine replies).state).getDeployment Sample.firstId).map
      Deployment.observedState = some .starting

/-- Launches that end STARTING: the preparation fails, the handle has no name, the clean-up
passes a keyword the engine does not take, the text of the failure cannot be encoded. -/
theorem launches_left_starting :
    Sample.LeftStarting Sample.engine
        { Sample.replies with prepare := .error (.serving Sample.unreadable) } ∧
      Sample.LeftStarting Sample.engine
        { Sample.replies with start := .ok { Sample.handle with model := some "" } } ∧
      Sample.LeftStarting { Sample.engine with stopTakesModelVersion := false }
        { Sample.replies with verify := .error (.serving Sample.unreadable) } ∧
      Sample.LeftStarting Sample.engine
        { Sample.replies with
          start := .error (.serving { Sample.unreadable with detailEncodes := false }) } := by
  refine ⟨⟨?_, ?_, by rfl⟩, ⟨?_, ?_, by rfl⟩, ⟨?_, ?_, by rfl⟩, ⟨?_, ?_, by rfl⟩⟩
  all_goals first
    | exact rehearse_reaches (Pool.initial_quiescent _)
    | decide

end CyreneReactor
