import CyreneReactor.Lifecycle.Commands
import CyreneReactor.Lifecycle.Run

namespace CyreneReactor

open Interaction ReactorService

/-! Serial executions: one section after the other, each run alone.

A section is a command that holds the lock throughout, or the commit of a
reconcile.  The commit of a serial execution is computed from what is stored
when it runs, or it is refused.
-/

/-- What a command does once it holds the lock. -/
def ReactorService.underLock (service : ReactorService) : Command → Service Deployment
  | .create request idempotencyKey => service.createLocked request idempotencyKey
  | .get deploymentId => service.getDeployment deploymentId
  | .stop deploymentId => service.stopLocked deploymentId
  | .restart deploymentId nodeRef resourceVersion =>
      service.restartLocked deploymentId nodeRef resourceVersion

theorem ReactorService.body_eq_locked (service : ReactorService) {command : Command}
    (locks : ∀ id, command ≠ .get id) :
    service.body command = Fallible.locked (service.underLock command) := by
  cases command with
  | get id => exact absurd rfl (locks id)
  | create | stop | restart => rfl

/-- What a locked section of a command can come to for one deployment. -/
inductive Commits (environment : Environment) (service : ReactorService) :
    Command → Uuid → Option Slot → List Exchange → Slot → Except Raised Deployment → Prop where
  | created {request : CreateDeploymentRequest} {key : Option String} {id : Uuid} {now : Datetime}
      {calls : List Exchange} {new : Slot} {result : Except Raised Deployment}
      (bound : ∃ engine, service.engineFor request.servingBindingId = .ok engine)
      (launches : Launches environment service ⟨newDeployment request id now, none, none⟩ calls
        new result) :
      Commits environment service (.create request key) id none calls new result
  | replayed {request : CreateDeploymentRequest} {key : Option String} {id : Uuid} {old new : Slot}
      {calls : List Exchange} {result : Except Raised Deployment}
      (reads : Reads old calls new result) :
      Commits environment service (.create request key) id (some old) calls new result
  | stopped {id : Uuid} {old new : Slot} {calls : List Exchange}
      {result : Except Raised Deployment} (stops : Stops environment service old calls new result) :
      Commits environment service (.stop id) id (some old) calls new result
  | restarted {id : Uuid} {nodeRef : NodeRef} {version : Nat} {old new : Slot}
      {calls : List Exchange} {result : Except Raised Deployment}
      (restarts : Restarts environment service nodeRef version old calls new result) :
      Commits environment service (.restart id nodeRef version) id (some old) calls new result
  | reconciled {id : Uuid} {old new : Slot} (reconciles : Reconciles old new) :
      Commits environment service (.get id) id (some old) [] new (.ok new.deployment)

/-- What a whole section that began in `origin` leaves. -/
inductive Served (environment : Environment) (service : ReactorService) (caller : Caller Command)
    (origin : State) (outcome : Except Raised Deployment) (state : State) : Prop where
  | idle (idle : Idle origin state)
  | committed {id : Uuid} {new : Slot} {calls recent : List Exchange}
      (commits : Commits environment service caller.command id (origin.database.slot id) calls new
        outcome)
      (inside : Inside origin id new calls recent state)

/-- The sections a serial execution runs from `state`, each under the lock. -/
inductive Section (service : ReactorService) (state : State) (caller : Caller Command) :
    Service Deployment → Prop where
  | command (locks : ∀ id, caller.command ≠ .get id) :
      Section service state caller (service.underLock caller.command)
  | reconcile {id : Uuid} {slot : Slot} {deployment : Deployment} {endpoint : Endpoint}
      {observation : EngineObservation} {now : Datetime}
      (command : caller.command = .get id) (here : state.database.slot id = some slot)
      (about : deployment.id = id)
      (live : deployment.observedState = .ready ∨ deployment.observedState = .degraded)
      (unchanged : slot.deployment.resourceVersion = deployment.resourceVersion →
        slot.deployment = deployment ∧ slot.endpoint = some endpoint) :
      Section service state caller
        (compareAndSave (reconciledDeployment deployment observation now)
          (reconciledEndpoint endpoint observation now) deployment.resourceVersion)

/-- No event of the journal is by this thread. -/
def Unseen (index : Nat) (state : State) : Prop :=
  ∀ event ∈ state.journal, event.caller.index ≠ index

/-- A command run alone: what it can reach, holding the lock `depth` times. -/
abbrev Alone (environment : Environment) (service : ReactorService) (caller : Caller Command) :
    Nat → Program productSignature (Except Raised Deployment) → State →
    Nat → Program productSignature (Except Raised Deployment) → State → Prop :=
  @Runs (service.system environment) caller (Except Raised Deployment)

/-- The states between the sections of a serial execution. -/
inductive Serial (environment : Environment) (service : ReactorService) : State → Prop where
  | initial : Serial environment service State.initial
  | next {caller : Caller Command} {state next : State} {body : Service Deployment}
      {result : Except Raised Deployment} (before : Serial environment service state)
      (unseen : Unseen caller.index state) (section' : Section service state caller body)
      (ran : Alone environment service caller 0 (Fallible.locked body).attempt state
        0 (.pure result) next) :
      Serial environment service next

/-- The states of a serial execution, those inside a section included. -/
def Underway (environment : Environment) (service : ReactorService) (state : State) : Prop :=
  ∃ start caller body, Serial environment service start ∧ Unseen caller.index start ∧
    Section service start caller body ∧ ∃ depth rest,
      Alone environment service caller 0 (Fallible.locked body).attempt start depth rest state

variable {environment : Environment} {service : ReactorService} {caller : Caller Command}
variable {state : State}

/-- Every command that locks comes to one of its outcomes. -/
theorem InSection.command (consistent : Consistent state) (unseen : Unseen caller.index state)
    (locks : ∀ id, caller.command ≠ .get id) :
    InSection environment service caller (service.underLock caller.command)
      (Served environment service caller state) state := by
  have others : ∀ event ∈ state.journal, event.caller ≠ caller :=
    fun event member same => unseen event member (congrArg Caller.index same)
  have missing : ∀ {id : Uuid} {next : Deployment → Service Deployment},
      state.database.slot id = none → InSection environment service caller
        (requireDeployment id >>= next) (Served environment service caller state) state := by
    intro id next absent
    have missing : state.database.getDeployment id = none := by
      simpa only [Database.slot, Option.map_eq_none_iff] using absent
    refine bind (read_bind rfl ?_)
    rw [show (StoreOp.run state.database (.getDeployment id)).1 = none from missing]
    exact throw (.idle (.start consistent))
  cases command : caller.command with
  | create request key =>
      refine (createLocked consistent command others).mono fun outcome after creates => ?_
      cases creates with
      | conflicting | missing => exact .idle (.start consistent)
      | unbound _ _ idle => exact .idle idle
      | replayed _ here reads inside =>
          refine .committed ?_ inside
          rw [command, here]
          exact .replayed reads
      | launched _ absent bound launches inside =>
          refine .committed ?_ inside
          rw [command, absent]
          exact .created bound launches
  | get id => exact absurd command (locks id)
  | stop id =>
      cases here : state.database.slot id with
      | none => exact missing here
      | some slot =>
          have may : MayStop caller id state.journal slot.deployment.resourceVersion := by
            unfold MayStop
            rw [command]
          refine stopLocked (.start consistent here) may
            fun made new result recent after stops _ inside => .committed ?_ inside
          rw [command, here]
          exact .stopped stops
  | restart id nodeRef version =>
      cases here : state.database.slot id with
      | none => exact missing here
      | some slot =>
          refine restartLocked (.start consistent here) command
            (fun _ member => absurd member List.not_mem_nil)
            (fun event member byCaller => absurd byCaller (others event member))
            fun made new result recent after restarts inside => .committed ?_ inside
          rw [command, here]
          exact .restarted restarts

/-- So does the commit of a reconcile. -/
theorem InSection.commit (consistent : Consistent state) {id : Uuid} {slot : Slot}
    {deployment : Deployment} {endpoint : Endpoint} {observation : EngineObservation}
    {now : Datetime} (command : caller.command = .get id)
    (here : state.database.slot id = some slot) (about : deployment.id = id)
    (live : deployment.observedState = .ready ∨ deployment.observedState = .degraded)
    (unchanged : slot.deployment.resourceVersion = deployment.resourceVersion →
      slot.deployment = deployment ∧ slot.endpoint = some endpoint) :
    InSection environment service caller
      (ReactorService.compareAndSave (reconciledDeployment deployment observation now)
        (reconciledEndpoint endpoint observation now) deployment.resourceVersion)
      (Served environment service caller state) state := by
  have inside := Inside.start consistent here
  refine compareAndSave inside about unchanged live (fun new reconciles => ?_)
    (fun _ => .idle (.start consistent)) fun new after reconciles _ inside => .committed ?_ inside
  · unfold MayWrite
    rw [command]
    exact ⟨inside.id_eq.symm, reconciles⟩
  · rw [command, here]
    exact .reconciled reconciles

theorem Section.inSection {body : Service Deployment} (section' : Section service state caller body)
    (consistent : Consistent state) (unseen : Unseen caller.index state) :
    InSection environment service caller body (Served environment service caller state)
      state := by
  cases section' with
  | command locks => exact .command consistent unseen locks
  | reconcile command here about live unchanged =>
      exact .commit consistent command here about live unchanged

/-- A section run alone is served, and moves the state lawfully. -/
theorem Section.served {next : State} {result : Except Raised Deployment}
    {body : Service Deployment} (section' : Section service state caller body)
    (consistent : Consistent state) (unseen : Unseen caller.index state)
    (ran : Alone environment service caller 0 (Fallible.locked body).attempt state
      0 (.pure result) next) :
    Served environment service caller state result next ∧
      Evolves environment service state next := by
  have held : InSection environment service caller body
    (Served environment service caller state) state := section'.inSection consistent unseen
  obtain ⟨served, path⟩ := Held.locked_finishes held ran
  exact ⟨served, path.lift id fun _ _ guaranteed => ⟨caller, true, guaranteed⟩⟩

theorem Alone.locked {next : State} {result : Except Raised Deployment}
    {post : Except Raised Deployment → State → Prop}
    (locks : ∀ id, caller.command ≠ .get id)
    (held : InSection environment service caller (service.underLock caller.command) post state)
    (ran : Alone environment service caller 0 (service.body caller.command).attempt state
      0 (.pure result) next) : post result next := by
  rw [service.body_eq_locked locks] at ran
  exact (Held.locked_finishes held ran).1

/-- A create run alone comes to one of the outcomes of `Creates`. -/
theorem Alone.create {next : State} {request : CreateDeploymentRequest} {key : Option String}
    {index : Nat} {result : Except Raised Deployment} (consistent : Consistent state)
    (unseen : Unseen index state)
    (ran : Alone environment service ⟨index, .create request key⟩ 0
      (service.body (.create request key)).attempt state 0 (.pure result) next) :
    Creates environment service request key state result next :=
  Alone.locked (fun _ same => by cases same)
    (InSection.createLocked consistent rfl fun event member same =>
      unseen event member (congrArg Caller.index same)) ran

/-- A stop of a stored deployment run alone comes to one of the outcomes of `Stops`. -/
theorem Alone.stop {next : State} {id : Uuid} {slot : Slot} {index : Nat}
    {result : Except Raised Deployment} (consistent : Consistent state)
    (here : state.database.slot id = some slot)
    (ran : Alone environment service ⟨index, .stop id⟩ 0 (service.body (.stop id)).attempt state
      0 (.pure result) next) :
    ∃ calls new recent, Stops environment service slot calls new result ∧
      Inside state id new calls recent next := by
  have may : MayStop ⟨index, .stop id⟩ id state.journal slot.deployment.resourceVersion :=
    show id = id from rfl
  have held : InSection environment service ⟨index, .stop id⟩ (service.stopLocked id)
      (fun result after => ∃ calls new recent, Stops environment service slot calls new result ∧
        Inside state id new calls recent after) state :=
    InSection.stopLocked (.start consistent here) may
      fun made new result recent after stops _ inside => ⟨made, new, recent, stops, inside⟩
  exact Alone.locked (fun _ same => by cases same) held ran

/-- So does a restart, with `Restarts`. -/
theorem Alone.restart {next : State} {id : Uuid} {nodeRef : NodeRef} {version : Nat} {slot : Slot}
    {index : Nat} {result : Except Raised Deployment} (consistent : Consistent state)
    (unseen : Unseen index state) (here : state.database.slot id = some slot)
    (ran : Alone environment service ⟨index, .restart id nodeRef version⟩ 0
      (service.body (.restart id nodeRef version)).attempt state 0 (.pure result) next) :
    ∃ calls new recent, Restarts environment service nodeRef version slot calls new result ∧
      Inside state id new calls recent next := by
  have held : InSection environment service ⟨index, .restart id nodeRef version⟩
      (service.restartLocked id nodeRef version)
      (fun result after => ∃ calls new recent,
        Restarts environment service nodeRef version slot calls new result ∧
          Inside state id new calls recent after) state :=
    InSection.restartLocked (.start consistent here) rfl
      (fun _ member => absurd member List.not_mem_nil)
      (fun event member same => absurd (congrArg Caller.index same) (unseen event member))
      fun made new result recent after restarts inside => ⟨made, new, recent, restarts, inside⟩
  exact Alone.locked (fun _ same => by cases same) held ran

theorem Serial.evolves (serial : Serial environment service state) :
    Evolves environment service State.initial state := by
  induction serial with
  | initial => exact .refl
  | next _ unseen section' ran ih =>
      exact ih.trans (section'.served (ih.consistent initial_consistent) unseen ran).2

theorem Serial.consistent (serial : Serial environment service state) : Consistent state :=
  serial.evolves.consistent initial_consistent

end CyreneReactor
