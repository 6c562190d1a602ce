import CyreneReactor.Lifecycle.Section

namespace CyreneReactor

open Interaction ReactorService

/-- The exchange is one the environment allows while the deployment is stored
as `slot`. -/
def Environment.Admits (environment : Environment) (slot : Slot) (exchange : Exchange) : Prop :=
  ∃ database : Database, database.slot exchange.call.deploymentId = some slot ∧
    environment database (.port exchange.engine exchange.call) exchange.answer

/-- The environment allows this document to be saved over `slot`. -/
def Environment.AdmitsSave (environment : Environment) (slot : Slot) (deployment : Deployment) :
    Prop :=
  ∃ database : Database, database.slot deployment.id = some slot ∧
    environment database (.store (.saveDeployment deployment)) ()

/-- What a section that began in `origin` knows in `state`: the slot it works on,
the engine calls it made, those since its last write, and that it touched no
other deployment. -/
structure Inside (origin : State) (id : Uuid) (slot : Slot) (calls recent : List Exchange)
    (state : State) : Prop where
  consistent : Consistent state
  here : state.database.slot id = some slot
  elsewhere : ∀ other, other ≠ id → state.database.slot other = origin.database.slot other
  grown : ∃ events, state.journal = origin.journal ++ events ∧ exchanges events = calls
  since : sinceWrite id state.journal = recent

/-- An operation that leaves no trace neither writes a slot nor calls an engine. -/
theorem Op.quiet_of_unrecorded {caller : Caller Command} {op : Op} {answer : op.Answer}
    (unrecorded : op.recorded = false) : (Event.mk caller op answer).quiet := by
  cases op with
  | utcNow => exact ⟨rfl, fun _ => rfl⟩
  | store op => cases op <;> first | exact ⟨rfl, fun _ => rfl⟩ | cases unrecorded
  | uuid4 | port engine call | activity call => cases unrecorded

theorem sinceWrite_after (id : Uuid) (state : State) (caller : Caller Command) (op : Op)
    (answer : op.Answer) :
    sinceWrite id (state.after caller true op answer).journal =
      if (Event.mk caller op answer).writesSlot id then []
      else sinceWrite id state.journal ++ exchanges [⟨caller, op, answer⟩] := by
  unfold State.after
  cases recorded : op.recorded with
  | true => exact sinceWrite_append id state.journal ⟨caller, op, answer⟩
  | false =>
      have quiet : (Event.mk caller op answer).quiet := Op.quiet_of_unrecorded recorded
      simp [quiet.2 id, exchanges_of_silent quiet.1]

/-- A section that has not yet touched the store or called an engine. -/
structure Idle (origin state : State) : Prop where
  consistent : Consistent state
  untouched : state.database = origin.database
  grown : ∃ events, state.journal = origin.journal ++ events ∧
    ∀ event ∈ events, event.exchange? = none ∧ event.created? = none

theorem Idle.start {state : State} (consistent : Consistent state) : Idle state state :=
  ⟨consistent, rfl, [], (List.append_nil _).symm, fun _ member => absurd member List.not_mem_nil⟩

theorem Idle.after {origin state : State} (idle : Idle origin state) {caller : Caller Command}
    {op : Op} {answer : op.Answer} (untouched : op.effect state.database = state.database)
    (silent : (Event.mk caller op answer).exchange? = none ∧
      (Event.mk caller op answer).created? = none) :
    Idle origin (state.after caller true op answer) := by
  have same : (state.after caller true op answer).database = state.database := untouched
  obtain ⟨events, grown, quiet⟩ := idle.grown
  refine ⟨⟨by rw [same]; exact idle.consistent.linked, ?_, ?_⟩, same.trans idle.untouched, ?_⟩
  · rw [same]
    exact fun row member => issued_after (idle.consistent.deploymentIssued row member)
  · rw [same]
    exact fun row member => issued_after (idle.consistent.endpointIssued row member)
  · unfold State.after
    split
    · refine ⟨events ++ [⟨caller, op, answer⟩], by simp only [grown, List.append_assoc], ?_⟩
      intro event member
      rcases List.mem_append.mp member with earlier | last
      · exact quiet event earlier
      · rw [List.mem_singleton.mp last]
        exact silent
    · exact ⟨events, grown, quiet⟩

/-- An endpoint built for a slot and ready to be saved with it. -/
structure Placed (state : State) (slot : Slot) (endpoint : Endpoint) : Prop where
  follows : endpoint.Follows slot
  drawn : endpoint.id ∈ issued state.journal
  new : slot.endpoint = none → ∀ row ∈ state.database.endpoints.rows, row.id ≠ endpoint.id

namespace Inside

variable {origin state : State} {id : Uuid} {slot : Slot} {calls recent : List Exchange}
variable {caller : Caller Command} {service : ReactorService}

theorem start (consistent : Consistent state) (here : state.database.slot id = some slot) :
    Inside state id slot [] (sinceWrite id state.journal) state where
  consistent := consistent
  here := here
  elsewhere _ _ := rfl
  grown := ⟨[], (List.append_nil _).symm, rfl⟩
  since := rfl

/-- A section continued from a later point of itself. -/
theorem trans {middle : State} {slot' : Slot} {calls' recent' : List Exchange}
    (first : Inside origin id slot calls recent middle)
    (second : Inside middle id slot' calls' recent' state) :
    Inside origin id slot' (calls ++ calls') recent' state where
  consistent := second.consistent
  here := second.here
  elsewhere other different :=
    (second.elsewhere other different).trans (first.elsewhere other different)
  grown := by
    obtain ⟨before, journal, earlier⟩ := first.grown
    obtain ⟨later, journal', rest⟩ := second.grown
    exact ⟨before ++ later, by rw [journal', journal, List.append_assoc],
      by rw [exchanges_append, earlier, rest]⟩
  since := second.since

/-- The rest of a section, seen from here on. -/
theorem restart (inside : Inside origin id slot calls recent state) :
    Inside state id slot [] recent state := by
  have fresh := start inside.consistent inside.here
  rw [inside.since] at fresh
  exact fresh

theorem id_eq (inside : Inside origin id slot calls recent state) : slot.deployment.id = id :=
  (Database.slot_eq_some inside.here).2.1

theorem names (inside : Inside origin id slot calls recent state) {endpoint : Endpoint}
    (stored : slot.endpoint = some endpoint) : slot.deployment.endpointId = some endpoint.id := by
  rcases inside.consistent.linked.endpoint_of_slot inside.here with
    ⟨_, absent⟩ | ⟨present, named, there, _⟩
  · rw [absent] at stored
    cases stored
  · rw [there, Option.some.injEq] at stored
    rw [← stored, named]

/-- The journal of the origin is still there. -/
theorem mem_journal (inside : Inside origin id slot calls recent state) {event : Event}
    (member : event ∈ origin.journal) : event ∈ state.journal := by
  obtain ⟨events, grown, _⟩ := inside.grown
  rw [grown]
  exact List.mem_append_left _ member

theorem wrote (inside : Inside origin id slot calls recent state) {target : Uuid}
    (written : Wrote caller target origin.journal) : Wrote caller target state.journal := by
  obtain ⟨event, member, byCaller, writes⟩ := written
  exact ⟨event, inside.mem_journal member, byCaller, writes⟩

theorem created (inside : Inside origin id slot calls recent state) {target : Uuid}
    (made : Created caller target origin.journal) : Created caller target state.journal := by
  obtain ⟨event, member, byCaller, creates⟩ := made
  exact ⟨event, inside.mem_journal member, byCaller, creates⟩

theorem mayLaunch (inside : Inside origin id slot calls recent state) {target : Uuid}
    (may : MayLaunch caller target origin.journal) : MayLaunch caller target state.journal := by
  unfold MayLaunch at may ⊢
  cases command : caller.command with
  | create request key =>
      simp only [command] at may ⊢
      exact inside.created may
  | restart target' nodeRef version =>
      simp only [command] at may ⊢
      exact ⟨may.1, inside.wrote may.2⟩
  | get target' | stop target' =>
      simp only [command] at may

theorem mayStop (inside : Inside origin id slot calls recent state) {target : Uuid} {version : Nat}
    (may : MayStop caller target origin.journal version) :
    MayStop caller target state.journal version := by
  unfold MayStop at may ⊢
  cases command : caller.command with
  | stop target' =>
      simp only [command] at may ⊢
      exact may
  | restart target' nodeRef expected =>
      simp only [command] at may ⊢
      exact ⟨may.1, may.2.imp_left inside.wrote⟩
  | create request key | get target' => simp only [command] at may

/-- The only engine calls that can have joined the journal are the section's. -/
theorem unstarted (inside : Inside origin id slot calls recent state)
    (before : ∀ event ∈ origin.journal, event.caller = caller →
      event.exchange?.any Exchange.starts = false)
    (own : ∀ exchange ∈ calls, exchange.starts = false) :
    ∀ event ∈ state.journal, event.caller = caller →
      event.exchange?.any Exchange.starts = false := by
  intro event member byCaller
  obtain ⟨events, grown, made⟩ := inside.grown
  rw [grown, List.mem_append] at member
  rcases member with old | new
  · exact before event old byCaller
  · cases exchanged : event.exchange? with
    | none => rfl
    | some exchange =>
        have here : exchange ∈ calls := made ▸ List.mem_filterMap.mpr ⟨event, new, exchanged⟩
        simpa using own exchange here

theorem after_quiet (inside : Inside origin id slot calls recent state) {op : Op}
    {answer : op.Answer} (sparing : op.sparing) (quiet : (Event.mk caller op answer).quiet) :
    Inside origin id slot calls recent (state.after caller true op answer) where
  consistent := sparing.consistent inside.consistent
  here := (sparing.slot id).trans inside.here
  elsewhere other different := (sparing.slot other).trans (inside.elsewhere other different)
  grown := by
    obtain ⟨events, grown, made⟩ := inside.grown
    unfold State.after
    split
    · refine ⟨events ++ [⟨caller, op, answer⟩], by simp only [grown, List.append_assoc], ?_⟩
      rw [exchanges_append, made, exchanges_of_silent quiet.1, List.append_nil]
    · exact ⟨events, grown, made⟩
  since := by
    unfold State.after
    split
    · simp [sinceWrite_append, quiet.2 id, exchanges_of_silent quiet.1, inside.since]
    · exact inside.since

theorem after_port (inside : Inside origin id slot calls recent state) {engine : Engine}
    {call : PortCall} {answer : call.Answer} :
    Inside origin id slot (calls ++ [⟨engine, call, answer⟩]) (recent ++ [⟨engine, call, answer⟩])
      (state.after caller true (.port engine call) answer) where
  consistent := by
    have sparing : (Op.port engine call).sparing := fun _ => ⟨rfl, rfl, rfl⟩
    exact sparing.consistent inside.consistent
  here := inside.here
  elsewhere := inside.elsewhere
  grown := by
    obtain ⟨events, grown, made⟩ := inside.grown
    refine ⟨events ++ [⟨caller, .port engine call, answer⟩], ?_, ?_⟩
    · simp [State.after, Op.recorded, grown]
    · rw [exchanges_append, made]
      rfl
  since := by
    have journal : (state.after caller true (.port engine call) answer).journal =
        state.journal ++ [⟨caller, .port engine call, answer⟩] := rfl
    rw [journal, sinceWrite_append, inside.since]
    rfl

/-- Either of the two writes of a slot, when it is lawful. -/
theorem after_write (inside : Inside origin id slot calls recent state) {op : Op}
    {answer : op.Answer} {new : Slot} (lawful : op.Lawful service caller state)
    (recorded : op.recorded = true) (writes : (Event.mk caller op answer).writesSlot id = true)
    (silent : (Event.mk caller op answer).exchange? = none)
    (here : (state.after caller true op answer).database.slot id = some new)
    (elsewhere : ∀ other, other ≠ id →
      (state.after caller true op answer).database.slot other = state.database.slot other) :
    Inside origin id new calls [] (state.after caller true op answer) ∧
      Wrote caller id (state.after caller true op answer).journal := by
  have journal : (state.after caller true op answer).journal =
      state.journal ++ [⟨caller, op, answer⟩] := by
    simp [State.after, recorded]
  refine ⟨?_, ⟨caller, op, answer⟩, ?_, rfl, writes⟩
  · constructor
    · exact lawful.consistent inside.consistent
    · exact here
    · exact fun other different =>
        (elsewhere other different).trans (inside.elsewhere other different)
    · obtain ⟨events, grown, made⟩ := inside.grown
      refine ⟨events ++ [⟨caller, op, answer⟩], by rw [journal, grown, List.append_assoc], ?_⟩
      rw [exchanges_append, made, exchanges_of_silent silent, List.append_nil]
    · rw [journal, sinceWrite_append, if_pos writes]
  · rw [journal]
    exact List.mem_append_right _ (List.mem_singleton_self _)

/-- A changed copy of the slot's own endpoint can be saved with it. -/
theorem placed (inside : Inside origin id slot calls recent state)
    {previous endpoint : Endpoint} (stored : slot.endpoint = some previous)
    (sameId : endpoint.id = previous.id) (sameOwner : endpoint.deploymentId = previous.deploymentId)
    (sameCreation : endpoint.createdAt = previous.createdAt)
    (bumped : endpoint.resourceVersion = previous.resourceVersion + 1) :
    Placed state slot endpoint := by
  rcases inside.consistent.linked.endpoint_of_slot inside.here with
    ⟨_, absent⟩ | ⟨present, _, there, owner, lookup⟩
  · rw [absent] at stored
    cases stored
  · rw [there, Option.some.injEq] at stored
    subst stored
    refine ⟨⟨sameOwner.trans (owner.trans inside.id_eq.symm), fun absent => ?_, ?_⟩, ?_, ?_⟩
    · rw [there] at absent
      cases absent
    · intro previous known
      rw [there, Option.some.injEq] at known
      subst known
      exact ⟨sameId, sameCreation, bumped⟩
    · rw [sameId]
      exact inside.consistent.endpointIssued _ (Database.getEndpoint_mem lookup).1
    · intro absent
      rw [there] at absent
      cases absent

end Inside

namespace InSection

variable {environment : Environment} {service : ReactorService} {caller : Caller Command}
variable {ε α β : Type} {post : Except Raised β → State → Prop} {origin state : State}
variable {id : Uuid} {slot : Slot} {calls recent : List Exchange}

theorem utcNow_bind {next : Datetime → Service β}
    (rest : ∀ now, InSection environment service caller (next now) post state) :
    InSection environment service caller (utcNow >>= next) post state :=
  bind (call trivial fun now _ _ => rest now)

/-- A read of the store changes nothing and returns what is stored. -/
theorem read_bind {op : StoreOp} (reads : op.writes = false) {next : op.Answer → Service β}
    (rest : InSection environment service caller (next (op.run state.database).1) post state) :
    InSection environment service caller (store op >>= next) post state := by
  have lawful : (Op.store op).Lawful service caller state := by
    cases op <;> trivial
  refine bind (call lawful fun answer _ answers => ?_)
  have same : state.after caller true (.store op) answer = state := by
    simp only [State.after, Op.effect, StoreOp.run_of_not_writes reads, Op.recorded, reads,
      Bool.and_false, Bool.false_eq_true, if_false]
  rw [same, show answer = (op.run state.database).1 from answers]
  exact rest

theorem requireDeployment_bind {next : Deployment → Service β}
    (inside : Inside origin id slot calls recent state)
    (rest : InSection environment service caller (next slot.deployment) post state) :
    InSection environment service caller (requireDeployment id >>= next) post state := by
  refine bind (read_bind rfl ?_)
  have found : (StoreOp.run state.database (.getDeployment id)).1 = some slot.deployment :=
    (Database.slot_eq_some inside.here).1
  rw [found]
  exact pure rest

theorem requireEndpoint_bind {endpoint : Endpoint} {next : Endpoint → Service β}
    (found : state.database.getEndpoint endpoint.id = some endpoint)
    (rest : InSection environment service caller (next endpoint) post state) :
    InSection environment service caller (requireEndpoint endpoint.id >>= next) post state := by
  refine bind (read_bind rfl ?_)
  rw [show (StoreOp.run state.database (.getEndpoint endpoint.id)).1 = some endpoint from found]
  exact pure rest

theorem previousEndpoint_bind {deployment : Deployment} {next : Option Endpoint → Service β}
    (inside : Inside origin id slot calls recent state)
    (names : deployment.endpointId = slot.deployment.endpointId)
    (rest : InSection environment service caller (next slot.endpoint) post state) :
    InSection environment service caller (previousEndpoint deployment >>= next) post state := by
  unfold previousEndpoint
  rcases inside.consistent.linked.endpoint_of_slot inside.here with
    ⟨unnamed, absent⟩ | ⟨endpoint, named, present, _, lookup⟩
  · rw [names, unnamed]
    rw [absent] at rest
    exact bind (pure rest)
  · rw [names, named]
    rw [present] at rest
    exact bind (requireEndpoint_bind lookup (pure rest))

theorem getExecutionRef_bind {next : Option String → Service β}
    (inside : Inside origin id slot calls recent state)
    (rest : InSection environment service caller (next slot.executionRef) post state) :
    InSection environment service caller (store (.getExecutionRef id) >>= next) post state := by
  refine read_bind rfl ?_
  have found : (StoreOp.run state.database (.getExecutionRef id)).1 = slot.executionRef :=
    (Database.slot_eq_some inside.here).2.2.2.symm
  rw [found]
  exact rest

theorem report_bind {activity : ActivityCall} {next : Unit → Service β}
    (inside : Inside origin id slot calls recent state)
    (rest : ∀ after, Inside origin id slot calls recent after →
      InSection environment service caller (next ()) post after) :
    InSection environment service caller (report activity >>= next) post state :=
  bind (call trivial fun _ _ _ =>
    rest _ (inside.after_quiet (fun _ => ⟨rfl, rfl, rfl⟩) ⟨rfl, fun _ => rfl⟩))

theorem appendEvent {deploymentId : Uuid} {phase : DeploymentPhase} {message : String}
    {failureCode : Option String} {goal : Except Raised Unit → State → Prop}
    (inside : Inside origin id slot calls recent state)
    (holds : ∀ after, Inside origin id slot calls recent after → goal (.ok ()) after) :
    InSection environment service caller
      (appendEvent deploymentId phase message failureCode) goal state := by
  refine utcNow_bind fun now => bind (call trivial fun answer _ answers => ?_)
  obtain ⟨events, appended⟩ := state.database.appendDeploymentEvent_spec deploymentId phase message
    now failureCode
  have accepted : answer = Except.ok _ := answers.trans (congrArg Prod.fst appended)
  rw [accepted]
  exact ofExcept_bind (pure (holds _ (inside.after_quiet
    (Op.sparing_appendDeploymentEvent _ _ _ _ _) ⟨rfl, fun _ => rfl⟩)))

theorem appendEvent_bind {deploymentId : Uuid} {phase : DeploymentPhase} {message : String}
    {failureCode : Option String} {next : Unit → Service β}
    (inside : Inside origin id slot calls recent state)
    (rest : ∀ after, Inside origin id slot calls recent after →
      InSection environment service caller (next ()) post after) :
    InSection environment service caller
      (ReactorService.appendEvent deploymentId phase message failureCode >>= next) post state :=
  bind (appendEvent inside rest)

theorem recordDeploymentDiagnostic_bind {deploymentId : Uuid} {message level : String}
    {code : Option String} {next : Unit → Service β}
    (inside : Inside origin id slot calls recent state)
    (rest : ∀ after, Inside origin id slot calls recent after →
      InSection environment service caller (next ()) post after) :
    InSection environment service caller
      (recordDeploymentDiagnostic deploymentId message level code >>= next) post state :=
  bind (utcNow_bind fun _ => call trivial fun _ _ _ =>
    rest _ (inside.after_quiet (Op.sparing_appendDeploymentDiagnostics _ _) ⟨rfl, fun _ => rfl⟩))

/-- A report before a callback does not show in what the callback is given. -/
theorem admitAndPersist {taskId : String} {taskState : TaskState} {persist : Service β}
    (inside : Inside origin id slot calls recent state)
    (rest : ∀ after, Inside origin id slot calls recent after →
      InSection environment service caller persist post after) :
    InSection environment service caller (service.admitAndPersist taskId taskState persist) post
      state := by
  rw [ReactorService.admitAndPersist_eq]
  split
  · exact report_bind inside rest
  · exact rest state inside

theorem transitionAndPersist {taskId : String} {taskState : TaskState} {persist : Service β}
    (inside : Inside origin id slot calls recent state)
    (rest : ∀ after, Inside origin id slot calls recent after →
      InSection environment service caller persist post after) :
    InSection environment service caller (service.transitionAndPersist taskId taskState persist)
      post state := by
  rw [ReactorService.transitionAndPersist_eq]
  split
  · exact report_bind inside rest
  · exact rest state inside

/-- A completed task is reported after its callback. -/
theorem completeAfterPersist (origin : State) (id : Uuid) {taskId : String}
    {persist : Service Unit} {goal : Except Raised Unit → State → Prop}
    (holds : InSection environment service caller persist (fun outcome after =>
      match outcome with
      | .ok _ => ∃ slot calls recent, Inside origin id slot calls recent after ∧
          ∀ reported, Inside origin id slot calls recent reported → goal (.ok ()) reported
      | .error raised => goal (.error raised) after) state) :
    InSection environment service caller (service.completeAfterPersist taskId persist) goal
      state := by
  rw [ReactorService.completeAfterPersist_eq]
  split
  · refine bind (holds.mono fun outcome after persisted => ?_)
    match outcome, persisted with
    | .ok _, persisted =>
        obtain ⟨slot, calls, recent, inside, reported⟩ := persisted
        exact call trivial fun _ _ _ =>
          reported _ (inside.after_quiet (fun _ => ⟨rfl, rfl, rfl⟩) ⟨rfl, fun _ => rfl⟩)
    | .error raised, persisted => exact persisted
  · refine holds.mono fun outcome after persisted => ?_
    match outcome, persisted with
    | .ok _, persisted =>
        obtain ⟨slot, calls, recent, inside, reported⟩ := persisted
        exact reported after inside
    | .error raised, persisted => exact persisted

theorem storeEncoded {encodes : Bool} {op : StoreOp} {goal : Except Raised op.Answer → State → Prop}
    (saves : encodes = true → InSection environment service caller (store op) goal state)
    (refuses : encodes = false → goal (.error (.other .valueError)) state) :
    InSection environment service caller (storeEncoded encodes op) goal state := by
  refine ofExcept_bind ?_
  cases encodes with
  | true => exact saves rfl
  | false => exact refuses rfl

/-- The one rule for calls of an engine. -/
theorem port {engine : Engine} {request : PortCall} {goal : Except Raised request.Value → State → Prop}
    (inside : Inside origin id slot calls recent state) (about : request.deploymentId = id)
    (lawful : request.Lawful service caller state engine)
    (holds : ∀ answer after, environment.Admits slot ⟨engine, request, answer⟩ →
      Inside origin id slot (calls ++ [⟨engine, request, answer⟩])
        (recent ++ [⟨engine, request, answer⟩]) after → goal answer after) :
    InSection environment service caller (port engine request) goal state := by
  refine bind (call lawful fun answer admitted _ => ⟨rfl, ?_⟩)
  have exchanged := holds answer (state.after caller true (.port engine request) answer)
    ⟨state.database, by rw [about]; exact inside.here, admitted⟩ inside.after_port
  cases answer <;> exact exchanged

theorem save {deployment : Deployment} {goal : Except Raised Unit → State → Prop}
    (inside : Inside origin id slot calls recent state) (about : deployment.id = id)
    (kept : deployment.endpointId = slot.deployment.endpointId)
    (write : LawfulWrite caller state.journal slot { slot with deployment })
    (holds : ∀ after, environment.AdmitsSave slot deployment →
      Inside origin id { slot with deployment } calls [] after →
      Wrote caller id after.journal → goal (.ok ()) after) :
    InSection environment service caller (store (.saveDeployment deployment)) goal state := by
  subst about
  have lawful : (Op.store (.saveDeployment deployment)).Lawful service caller state :=
    ⟨slot, inside.here, kept, write⟩
  refine call lawful fun _ admitted _ => ?_
  obtain ⟨within, wrote⟩ := inside.after_write lawful rfl (beq_self_eq_true deployment.id) rfl
    (Database.slot_saveDeployment_self inside.here kept)
    fun other different => Database.slot_saveDeployment_other (Ne.symm different)
  exact holds _ ⟨state.database, inside.here, admitted⟩ within wrote

theorem savePair {deployment : Deployment} {endpoint : Endpoint} {executionRef : Option String}
    {goal : Except Raised Unit → State → Prop}
    (inside : Inside origin id slot calls recent state) (about : deployment.id = id)
    (names : deployment.endpointId = some endpoint.id) (placed : Placed state slot endpoint)
    (write : LawfulWrite caller state.journal slot
      ⟨deployment, some endpoint, executionRef.or slot.executionRef⟩)
    (holds : ∀ after,
      Inside origin id ⟨deployment, some endpoint, executionRef.or slot.executionRef⟩ calls []
        after → Wrote caller id after.journal → goal (.ok ()) after) :
    InSection environment service caller (store (.savePair deployment endpoint executionRef)) goal
      state := by
  have owner : endpoint.deploymentId = deployment.id :=
    placed.follows.owner.trans (inside.id_eq.trans about.symm)
  subst about
  have fits : state.database.Fits slot deployment endpoint :=
    ⟨inside.here, names, owner, fun previous present => (placed.follows.next previous present).1.symm,
      placed.new⟩
  have lawful : (Op.store (.savePair deployment endpoint executionRef)).Lawful service caller state :=
    ⟨slot, fits, placed.drawn, write⟩
  refine call lawful fun _ _ _ => ?_
  obtain ⟨within, wrote⟩ := inside.after_write lawful rfl (beq_self_eq_true deployment.id) rfl
    (Database.Linked.slot_savePair_self fits)
    fun other different => inside.consistent.linked.slot_savePair_other fits (Ne.symm different)
  exact holds _ within wrote

/-- Building the next endpoint of the slot: it draws an id when there is none yet,
and fails only on an empty model name. -/
theorem nextEndpoint {state' : EndpointState} {url : String}
    {model : Option Endpoint → Option String} {now : Datetime}
    {goal : Except Raised Endpoint → State → Prop}
    (inside : Inside origin id slot calls recent state)
    (holds : ∀ endpoint after, Inside origin id slot calls recent after →
      Placed after slot endpoint → endpoint.state = state' → endpoint.url = url →
      endpoint.model = model slot.endpoint → goal (.ok endpoint) after)
    (unnamed : model slot.endpoint = some "" → ∀ after, Inside origin id slot calls recent after →
      goal (.error (.other .valueError)) after) :
    InSection environment service caller
      (nextEndpoint slot.deployment state' url model now) goal state := by
  refine previousEndpoint_bind inside rfl ?_
  -- Either way an id is at hand under which the endpoint can be saved.
  have build : ∀ endpointId created version after, Inside origin id slot calls recent after →
      (∀ endpoint : Endpoint, endpoint.id = endpointId → endpoint.deploymentId = slot.deployment.id →
        endpoint.createdAt = created → endpoint.resourceVersion = version →
        Placed after slot endpoint) →
      InSection environment service caller
        (Fallible.ofExcept (Endpoint.create endpointId slot.deployment.id state' url
          (model slot.endpoint) created now version)) goal after := by
    intro endpointId created version after inside placed
    refine ⟨rfl, ?_⟩
    unfold Endpoint.create
    split
    · exact holds _ after inside (placed _ rfl rfl rfl rfl) rfl rfl rfl
    · rename_i empty
      exact unnamed (not_not.mp empty) after inside
  unfold endpointIdOrNew
  rcases inside.consistent.linked.endpoint_of_slot inside.here with
    ⟨unaddressed, absent⟩ | ⟨previous, named, present, owner, lookup⟩
  · rw [unaddressed]
    refine bind (call trivial fun drawn _ fresh => ?_)
    have quiet : Inside origin id slot calls recent (state.after caller true .uuid4 drawn) :=
      inside.after_quiet (fun _ => ⟨rfl, rfl, rfl⟩) ⟨rfl, fun _ => rfl⟩
    refine build drawn _ _ _ quiet fun endpoint isNew owned _ version => ?_
    refine ⟨⟨owned, fun _ => ?_, fun previous present => ?_⟩, ?_, fun _ row member clash => ?_⟩
    · rw [version, absent]
      rfl
    · rw [absent] at present
      cases present
    · have journal : (state.after caller true .uuid4 drawn).journal =
          state.journal ++ [⟨caller, .uuid4, drawn⟩] := rfl
      rw [isNew, journal, issued, List.filterMap_append]
      exact List.mem_append_right _ (List.mem_singleton_self drawn)
    · have known := inside.consistent.endpointIssued row member
      rw [clash, isNew] at known
      exact fresh known
  · rw [named]
    refine bind (pure ?_)
    refine build previous.id _ _ state inside fun endpoint sameId owned creation version => ?_
    refine inside.placed present sameId (owned.trans (inside.id_eq.trans owner.symm)) ?_ ?_
    · rw [creation, present]
      rfl
    · rw [version, present]
      rfl

end InSection

end CyreneReactor
