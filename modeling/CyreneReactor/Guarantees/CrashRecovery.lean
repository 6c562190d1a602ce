import CyreneReactor.Guarantees.LaunchVerdicts
import CyreneReactor.Guarantees.Stopping
import CyreneReactor.Interaction.Recall
import CyreneReactor.Lifecycle.Durable
import CyreneReactor.Lifecycle.WriteAhead

namespace CyreneReactor

open Interaction ReactorService

/-! Execution evidence survives the process.

The process may stop between any two calls and be started again on the same database.
Whatever was started before can still be stopped.
-/

namespace Remote

open Diagnostics Outcome RemoteServingExecutionPort

variable {port : RemoteServingExecutionPort} {replies : Nat → HttpReply} {count : Nat} {id : Uuid}
  {model : ArtifactRef} {nodeRef : Option NodeRef} {version : Option ModelVersionDocument}

/-- A failure that is raised names no other execution. -/
def Naming (name : String) (raised : Raised) : Prop :=
  ∀ failure, raised = .serving failure → failure.Names name

theorem names_some {failure : ServingEngineFailure} {name : String}
    (named : failure.executionRef = some name) : failure.Names name := by
  intro executionRef same
  rw [named, Option.some.injEq] at same
  exact same.symm

theorem naming_serving {failure : ServingEngineFailure} {name : String}
    (named : failure.executionRef = some name) : Naming name (.serving failure) := by
  intro other same
  cases same
  exact names_some named

theorem placed_naming {raised : Raised} : Naming id.str (port.placed id raised) := by
  intro failure same
  cases raised with
  | serving failure' =>
      cases same
      exact names_some rfl
  | product | other => cases same

theorem readHandle_names {expected : Option ModelVersionDocument} {result : Members}
    {handle : EngineHandle} (read : port.readHandle id model expected result = .ok handle) :
    handle.executionRef = id.str := by
  obtain ⟨version, _, read⟩ := bind_eq_ok.mp read
  obtain ⟨url, _, read⟩ := bind_eq_ok.mp read
  obtain ⟨served, _, read⟩ := bind_eq_ok.mp read
  obtain ⟨endpointUrl, _, read⟩ := bind_eq_ok.mp read
  obtain ⟨name, _, read⟩ := bind_eq_ok.mp read
  cases Except.ok.inj read
  rfl

theorem acceptStart_naming {expected : Option ModelVersionDocument} {reply : HttpReply} :
    Raises (Naming id.str) (port.acceptStart id model expected reply) := by
  have incompatible : Naming id.str (.serving (port.incompatible id)) := naming_serving rfl
  unfold acceptStart
  cases readReply port.contracts.printer reply with
  | error raised => exact raises_error.mpr placed_naming
  | ok result =>
      have unready : Naming id.str (.serving (port.modelNotReady id result)) := naming_serving rfl
      simp only
      split
      · cases read : port.readHandle id model expected result with
        | error raised => exact raises_error.mpr incompatible
        | ok handle =>
            have mismatch : Naming id.str (.serving (identityMismatch handle)) :=
              naming_serving (congrArg some (readHandle_names read))
            simp only
            split
            · exact raises_ok
            · exact raises_error.mpr mismatch
      · exact raises_error.mpr unready

theorem expectedVersion_naming :
    Raises (Naming id.str) (port.expectedVersion model nodeRef version) := by
  intro raised asked failure same
  subst same
  unfold expectedVersion at asked
  split at asked
  · cases asked
    exact fun _ named => by cases named
  · split at asked
    · cases asked
    · split at asked
      · cases asked
      · cases asked
        exact fun _ named => by cases named

/-- Whatever the host replies, a start names the execution of its deployment. -/
theorem start_naming : Raises (Naming id.str)
    (exchange replies (port.start id model nodeRef version).run count).1 := by
  rw [exchange_start]
  cases asked : port.expectedVersion model nodeRef version with
  | error raised => exact raises_error.mpr (expectedVersion_naming raised asked)
  | ok given =>
      obtain ⟨node, expected⟩ := given
      simp only
      cases accepted : port.acceptStart id model expected (replies count) with
      | error raised => exact raises_error.mpr (acceptStart_naming raised accepted)
      | ok handle =>
          have mine := (acceptStart_eq_ok accepted).1
          have unreachable : Naming id.str (.serving (dataPathUnreachable handle)) :=
            naming_serving (congrArg some mine)
          have inspects : Raises (Naming id.str) (exchange replies (port.inspect handle.executionRef
              handle.endpointUrl id (expectedDigest model expected) expected).run (count + 1)).1 := by
            rw [exchange_inspect mine]
            intro raised left failure same
            subst same
            -- what the engine raises is caught
            unfold recover at left
            split at left
            · cases left
            · split at left
              · cases left
              · cases left
                contradiction
          refine inspects.bind fun observation _ => ?_
          split
          · exact raises_ok
          · exact raises_error.mpr unreachable

theorem verify_naming {reference endpointUrl : String} {served : Option String} :
    Raises (Naming reference) (exchange replies
      (port.verifyServedModel id reference endpointUrl served).run count).1 := by
  have mismatch : ∀ detail, Naming reference
      (.serving (registryMismatch port.contracts.printer detail reference endpointUrl)) :=
    fun detail => naming_serving rfl
  have unreachable : Naming reference
      (.serving (judgeRegistry.unavailable port.contracts.printer reference endpointUrl)) :=
    naming_serving rfl
  have other : ∀ kind, Naming reference (.other kind) := fun kind failure same => by cases same
  rw [verifyServedModel, exchange_ofExcept]
  cases checked : port.checkEndpoint id reference endpointUrl served with
  | error raised =>
      have known : Naming reference raised := by
        unfold checkEndpoint at checked
        split at checked
        · cases checked
          exact mismatch _
        · split at checked
          · split at checked
            · cases checked
              exact mismatch _
            · cases checked
          · cases checked
            exact other _
      exact raises_error.mpr known
  | ok _ =>
      simp only [exchange_send]
      change Raises (Naming reference) (judgeRegistry port.contracts.printer (servedName id)
        reference endpointUrl (replies count))
      unfold judgeRegistry
      split
      · exact raises_error.mpr unreachable
      · split
        · exact raises_error.mpr (mismatch _)
        · exact raises_error.mpr (other _)
      · split
        · split
          · exact raises_error.mpr (mismatch _)
          · split
            · exact raises_ok
            · exact raises_error.mpr (mismatch _)
        · exact raises_error.mpr unreachable

end Remote

/-- What remote hosts answer names executions after deployments. -/
theorem hosted_named {ports : String → Remote.RemoteServingExecutionPort} {state : State}
    {op : Op} {answer : op.Answer} (admitted : hosted ports state.database op answer)
    (answers : Answers state op answer) : Named op answer := by
  cases op with
  | utcNow | uuid4 | activity => trivial
  | store op =>
      cases op with
      | appendDeploymentEvent id phase message occurredAt code =>
          cases answer with
          | ok event => trivial
          | error raised =>
              have answers : .error raised = (Database.appendDeploymentEvent state.database id phase
                message occurredAt code).1 := answers
              intro failure same
              subst same
              obtain ⟨events, appended⟩ := state.database.appendDeploymentEvent_spec id phase
                message occurredAt code
              rw [appended] at answers
              cases answers
      | getDeployment | getEndpoint | getExecutionRef | resolveIdempotency | createIntent
      | saveDeployment | savePair | appendDeploymentDiagnostics => trivial
  | port engine call =>
      obtain ⟨replies, answered⟩ := admitted
      cases call with
      | prepare id =>
          intro prepared same
          rw [answered] at same
          cases same
          exact ⟨_, rfl, rfl⟩
      | start id model node version =>
          rcases answer with (error | failure | kind) | handle
          · trivial
          · exact Remote.start_naming _ answered.symm failure rfl
          · trivial
          · exact (Remote.start_returned answered.symm).1
      | verifyServedModel id executionRef url served =>
          rcases answer with (error | failure | kind) | _
          · trivial
          · exact Remote.verify_naming _ answered.symm failure rfl
          · trivial
          · trivial
      | inspect | stop => trivial

/-- The rows a stop needs are stored, with evidence of the execution of this deployment. -/
def Recoverable (state : State) (id : Uuid) : Prop :=
  ∃ slot endpoint, state.database.slot id = some slot ∧ slot.endpoint = some endpoint ∧
    slot.executionRef = some id.str

/-- All evidence names the execution of its deployment. -/
def Evidenced (state : State) : Prop :=
  ∀ id executionRef, state.database.getExecutionRef id = some executionRef → executionRef = id.str

/-- What was saved with evidence is recoverable. -/
def Recalled (state : State) (past : Past productSignature) : Prop :=
  ∀ id, Saved id past → Recoverable state id

section Steps

variable {state next : State} {caller : Caller Command} {held : Bool} {op : Op}
variable {answer : op.Answer} {past : Past productSignature} {environment : Environment}
variable {service : ReactorService}

theorem Evidenced.after (evidenced : Evidenced state) (allowed : WriteAhead past op) :
    Evidenced (state.after caller held op answer) := by
  intro id executionRef found
  have found : (op.effect state.database).getExecutionRef id = some executionRef := found
  cases op with
  | utcNow | uuid4 | port | activity => exact evidenced id executionRef found
  | store op =>
      cases op with
      | getDeployment | getEndpoint | getExecutionRef | resolveIdempotency
      | saveDeployment | appendDeploymentDiagnostics => exact evidenced id executionRef found
      | appendDeploymentEvent deploymentId phase message occurredAt code =>
          obtain ⟨events, appended⟩ := state.database.appendDeploymentEvent_spec deploymentId phase
            message occurredAt code
          simp only [Op.effect, StoreOp.run, appended] at found
          exact evidenced id executionRef found
      | createIntent deployment key digest =>
          rcases state.database.createIntent_spec deployment key digest with
            ⟨_, unchanged⟩ | ⟨_, admits⟩
          · simp only [Op.effect, StoreOp.run, unchanged] at found
            exact evidenced id executionRef found
          · have kept := admits.executionEvidence
            unfold Database.getExecutionRef at found
            simp only [Op.effect, StoreOp.run, kept] at found
            exact evidenced id executionRef found
      | savePair deployment endpoint saved =>
          have found : (state.database.savePair deployment endpoint saved).getExecutionRef id =
            some executionRef := found
          rw [Database.getExecutionRef_savePair] at found
          split at found
          · rename_i same
            cases saved with
            | none => exact evidenced id executionRef found
            | some saved =>
                cases found
                rw [← same]
                exact allowed.1
          · exact evidenced id executionRef found

/-- What is recoverable stays so. -/
theorem Recoverable.kept {id : Uuid} (recoverable : Recoverable state id)
    (moves : Moves environment service state next) (consistent : Consistent state)
    (evidenced : Evidenced next) : Recoverable next id := by
  obtain ⟨slot, endpoint, here, address, evidence⟩ := recoverable
  have evolves : Evolves environment service state next := .single moves
  obtain ⟨new, there, path⟩ := evolves.slot consistent here
  have kept : new.endpoint.isSome = true ∧ new.executionRef.isSome = true := by
    clear there
    induction path with
    | refl => exact ⟨by rw [address]; rfl, by rw [evidence]; rfl⟩
    | tail _ transition ih =>
        obtain ⟨addressed, evidenced⟩ := ih
        cases transition with
        | prepared | ready | failedWithEvidence => exact ⟨rfl, rfl⟩
        | failed | stopping | restarted => exact ⟨addressed, evidenced⟩
        | reconciled => exact ⟨rfl, evidenced⟩
        | stopped => exact ⟨by simpa using addressed, evidenced⟩
  obtain ⟨endpoint', address'⟩ := Option.isSome_iff_exists.mp kept.1
  obtain ⟨executionRef, evidence'⟩ := Option.isSome_iff_exists.mp kept.2
  have stored := (Database.slot_eq_some there).2.2.2
  have named := evidenced id executionRef (stored.symm.trans evidence')
  exact ⟨new, endpoint', there, address', named ▸ evidence'⟩

/-- A save with evidence makes it recoverable. -/
theorem recoverable_savePair {deployment : Deployment} {endpoint : Endpoint} {executionRef : String}
    {answer : Op.Answer (.store (.savePair deployment endpoint (some executionRef)))}
    (allowed : WriteAhead past (.store (.savePair deployment endpoint (some executionRef)))) :
    Recoverable (state.after caller held (.store (.savePair deployment endpoint (some executionRef)))
      answer) deployment.id := by
  obtain ⟨named, addressed⟩ := allowed
  let after := state.database.savePair deployment endpoint (some executionRef)
  have saved : after.getDeployment deployment.id = some deployment := by
    rw [Database.getDeployment_savePair, if_pos rfl]
  have evidence : after.getExecutionRef deployment.id = some executionRef := by
    rw [Database.getExecutionRef_savePair, if_pos rfl]
    rfl
  refine ⟨⟨deployment, some endpoint, some executionRef⟩, endpoint, ?_, rfl, congrArg some named⟩
  change after.slot deployment.id = _
  rw [Database.slot_of_getDeployment saved, evidence, addressed]
  have there : after.getEndpoint endpoint.id = some endpoint := Database.getEndpoint_savePair_self
  rw [Option.bind_some, there]

end Steps

section Pools

variable {ports : String → Remote.RemoteServingExecutionPort} {service : ReactorService}
variable {lost : Except Raised Deployment}
variable {pool next : Pool (service.system (hosted ports))}

/-- What holds of every pool that commands and crashes reach. -/
structure WritesAhead (pool : Pool (service.system (hosted ports))) : Prop where
  recalls : Recalls WriteAhead Named Recalled pool
  evidenced : Evidenced pool.state
  started : ∀ event ∈ State.journal pool.state, ∀ engine id model node version,
    event.op = .port engine (.start id model node version) → Recoverable pool.state id

theorem recalled_nothing (state : State) : Recalled state [] := by
  rintro id ⟨_, _, _, member, _⟩
  cases member

theorem learns_of_moves {state after : State} (moves : Moves (hosted ports) service state after)
    (consistent : Consistent state) (evidenced : Evidenced after) :
    @Learns (service.system (hosted ports)) WriteAhead Named Recalled state after where
  keeps past recalled id saved := (recalled id saved).kept moves consistent evidenced
  learns := by
    rintro caller held op answer past ⟨admitted, answers, rfl⟩ allowed recalled
    refine ⟨hosted_named admitted answers, fun id saved => ?_⟩
    obtain ⟨deployment, endpoint, executionRef, member, rfl⟩ := saved
    rcases List.mem_append.mp member with earlier | last
    · exact (recalled _ ⟨_, _, _, earlier, rfl⟩).kept moves consistent evidenced
    · cases List.mem_singleton.mp last
      exact recoverable_savePair allowed

theorem Survived.writesAhead (survived : Survived (hosted ports) service lost pool) :
    WritesAhead pool := by
  induction survived with
  | refl =>
      constructor
      · exact fun thread member => absurd member List.not_mem_nil
      · intro id executionRef found
        cases found
      · exact fun event member => absurd member List.not_mem_nil
  | @tail middle last before step ih =>
      obtain ⟨recalls, evidenced, started⟩ := ih
      cases step with
      | crash => exact ⟨.crashed recalled_nothing, evidenced, started⟩
      | step step =>
          have before : Survived (hosted ports) service lost middle := before
          have moves := before.moves step
          have consistent := before.sound.2
          -- a call the rule allows, or nothing at all
          have called : last.state = middle.state ∨ ∃ caller held op answer past,
              Performs (hosted ports) caller held op middle.state answer last.state ∧
                Recalled middle.state past ∧ WriteAhead past op := by
            cases step with
            | start | acquire | release => exact .inl rfl
            | call here does =>
                obtain ⟨past, known, allowed⟩ := recalls.allowed here
                exact .inr ⟨_, _, _, _, past, does, known, allowed⟩
          have evidenced' : Evidenced last.state := by
            rcases called with same | ⟨caller, held, op, answer, past, performs, _, allowed⟩
            · exact same ▸ evidenced
            · obtain ⟨_, _, next⟩ := performs
              exact next ▸ evidenced.after allowed
          have bodies : ∀ command, (service.body command).attempt.Obeys WriteAhead Named
            (fun _ _ => True) [] := fun command => ahead_body command []
          refine ⟨recalls.step step bodies recalled_nothing
            (learns_of_moves moves consistent evidenced'), evidenced', ?_⟩
          intro event member engine id model node version starts
          have kept : event ∈ State.journal middle.state → Recoverable last.state id :=
            fun earlier => (started event earlier engine id model node version starts).kept moves
              consistent evidenced'
          rcases called with same | ⟨caller, held, op, answer, past, performs, recalled, allowed⟩
          · exact kept (same ▸ member)
          obtain ⟨_, _, next⟩ := performs
          have member : event ∈ (State.after middle.state caller held op answer).journal :=
            next ▸ member
          unfold State.after at member
          split at member
          · rcases List.mem_append.mp member with earlier | new
            · exact kept earlier
            · cases List.mem_singleton.mp new
              cases starts
              exact (recalled id allowed).kept moves consistent evidenced'
          · exact kept member

theorem Survived.recoverable_kept (survived : Survived (hosted ports) service lost pool)
    (path : Relation.ReflTransGen (CrashStep lost) pool next) {id : Uuid}
    (recoverable : Recoverable pool.state id) : Recoverable next.state id := by
  induction path with
  | refl => exact recoverable
  | @tail middle last before step ih =>
      have reached : Survived (hosted ports) service lost middle :=
        Relation.ReflTransGen.trans survived before
      have evidenced := (Survived.writesAhead (Relation.ReflTransGen.tail reached step)).evidenced
      cases step with
      | crash => exact ih
      | step step => exact ih.kept (reached.moves step) reached.sound.2 evidenced

/-- A stop of the deployment asks the engine of its binding to stop exactly its execution. -/
def Stoppable (environment : Environment) (service : ReactorService) (state : State) (id : Uuid) :
    Prop :=
  ∃ slot endpoint, state.database.slot id = some slot ∧ slot.endpoint = some endpoint ∧
    ∀ engine, slot.deployment.observedState ≠ .stopped →
      service.engineFor slot.deployment.servingBindingId = .ok engine →
      ∀ index result finish, Alone environment service ⟨index, .stop id⟩ 0
        (service.body (.stop id)).attempt state 0 (.pure result) finish →
        ∃ own identity answer, finish.journal = state.journal ++ own ∧
          exchanges own = [⟨engine, stopCall slot.deployment id.str endpoint.url identity, answer⟩]

/-- What is on record is enough for a stop. -/
theorem Recoverable.stoppable (remote : service.Remote) {state : State} {id : Uuid}
    (consistent : Consistent state) (recoverable : Recoverable state id) :
    Stoppable (hosted ports) service state id := by
  obtain ⟨slot, endpoint, here, address, evidence⟩ := recoverable
  refine ⟨slot, endpoint, here, address, ?_⟩
  intro engine running bound index result finish ran
  obtain ⟨calls, new, recent, stops, inside⟩ := Alone.stop consistent here ran
  obtain ⟨own, grown, exchanged⟩ := inside.grown
  have takes : engine.takesModelVersion .stop = true := by
    rw [remote _ engine bound]
    rfl
  obtain ⟨identity, answer, called⟩ :=
    stops.callsEngine running evidence address bound fun _ => takes
  exact ⟨own, identity, answer, grown, exchanged.trans called⟩

/-- What may be relied on in `last`, after any commands and crashes since `pool`. -/
structure Reclaims (pool last : Pool (service.system (hosted ports))) : Prop where
  asked : ∀ (index depth : Nat) command engine (id : Uuid) model node version rest,
    pool.threads[index]? = some ⟨command, depth, .call (.port engine (.start id model node version))
      rest⟩ → Recoverable pool.state id
  sent : ∀ event ∈ State.journal pool.state, ∀ engine id model node version,
    event.op = .port engine (.start id model node version) → Recoverable pool.state id
  kept : ∀ id, Recoverable pool.state id → Recoverable last.state id
  stopped : ∀ id, Recoverable last.state id → Stoppable (hosted ports) service last.state id

end Pools

/-- Whatever was asked to start is on record before it is asked, and can be stopped ever after. -/
theorem started_executions_can_be_stopped
    (ports : String → Remote.RemoteServingExecutionPort) (service : ReactorService)
    (remote : service.Remote) (lost : Except Raised Deployment)
    {pool last : Pool (service.system (hosted ports))}
    (survived : Survived (hosted ports) service lost pool)
    (path : Relation.ReflTransGen (CrashStep lost) pool last) : Reclaims pool last where
  asked := by
    intro index command depth engine id model node version rest here
    obtain ⟨past, recalled, saved⟩ := survived.writesAhead.recalls.allowed here
    exact recalled id saved
  sent := survived.writesAhead.started
  kept := fun id recoverable => survived.recoverable_kept path recoverable
  stopped := by
    intro id recoverable
    have reached : Survived (hosted ports) service lost last :=
      Relation.ReflTransGen.trans survived path
    exact recoverable.stoppable remote reached.sound.2

namespace Sample

/-- Hosts that answer every request the same. -/
def hosts : EngineScript := fun _ call =>
  remoteAnswer Remote.hostPort (fun _ => Remote.hostAnswer "served") call

theorem hosts_admitted (state : State) (op : Op) :
    hosted (fun _ => Remote.hostPort) state.database op (hosts.reply state op) := by
  cases op with
  | port engine call => exact ⟨fun _ => Remote.hostAnswer "served", rfl⟩
  | utcNow | uuid4 | store | activity => trivial

def hostedService : ReactorService := { Sample.service with engine := .remote "host" }

theorem hostedService_remote : hostedService.Remote := by
  intro binding engine bound
  have same : Engine.remote "host" = engine := Except.ok.inj bound
  rw [← same]
  rfl

/-- A create that is cut short after `fuel` steps. -/
def cut (fuel : Nat) : Pool (hostedService.system (hosted fun _ => Remote.hostPort)) :=
  rehearse hosts hosts_admitted fuel (.create Sample.request none) (.initial State.initial)

theorem survived_cut (fuel : Nat) :
    Survived (hosted fun _ => Remote.hostPort) hostedService (.error (.other .typeError))
      (cut fuel) :=
  (rehearse_reaches (Pool.initial_quiescent _)).lift id fun _ _ => CrashStep.step

end Sample

theorem started_executions_can_be_stopped_sampled :
    (exchanges (State.journal (Sample.cut 16).state)).any Exchange.starts = true ∧
      Reclaims (Sample.cut 16) ((Sample.cut 16).crashed (.error (.other .typeError))) :=
  ⟨by decide, started_executions_can_be_stopped (fun _ => Remote.hostPort) Sample.hostedService
    Sample.hostedService_remote (.error (.other .typeError)) (Sample.survived_cut 16)
    (.single (.crash _))⟩

/-- The store of `last` is consistent, continues that of `pool`, and accounts for executions. -/
structure Accounts {environment : Environment} {service : ReactorService}
    (pool last : Pool (service.system environment)) : Prop where
  consistent : Consistent last.state
  continued : ∀ id old, (State.database pool.state).slot id = some old →
    ∃ new, (State.database last.state).slot id = some new ∧ Relation.ReflTransGen Transition old new
  evidence : EvidenceKept last.state
  released : ReleasedSinceLaunch last.state

/-- Wherever the process is cut short, deployments only move through their lifecycle. -/
theorem crashes_keep_the_lifecycle (environment : Environment) (service : ReactorService)
    (lost : Except Raised Deployment) {pool last : Pool (service.system environment)}
    (survived : Survived environment service lost pool)
    (path : Relation.ReflTransGen (CrashStep lost) pool last) : Accounts pool last := by
  have consistent : Consistent pool.state := survived.sound.2
  have since : Evolves environment service pool.state last.state := survived.evolves path
  have start : Survived environment service lost (Pool.initial State.initial) := .refl
  have whole : Evolves environment service State.initial last.state :=
    start.evolves (Relation.ReflTransGen.trans survived path)
  exact
    { consistent := since.consistent consistent
      continued := fun id old here => since.slot consistent here
      evidence := whole.evidenceKept
      released := whole.releasedSinceLaunch }

theorem crashes_keep_the_lifecycle_sampled :
    Accounts (Sample.cut 16) ((Sample.cut 16).crashed (.error (.other .typeError))) :=
  crashes_keep_the_lifecycle (hosted fun _ => Remote.hostPort) Sample.hostedService
    (.error (.other .typeError)) (Sample.survived_cut 16) (.single (.crash _))

end CyreneReactor
