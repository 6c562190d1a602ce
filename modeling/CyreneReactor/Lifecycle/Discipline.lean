import CyreneReactor.Lifecycle.Serial

namespace CyreneReactor

open Interaction ReactorService

/-! Every interleaving keeps one discipline.

Without the lock nothing changes.  Under it every operation is lawful and the
state stays one that a serial execution passes through; between sections it is
one that a serial execution ends in.
-/

/-- The command, started in `origin`, was a read, or it ran alone from a state
between two sections. -/
def Finished (environment : Environment) (service : ReactorService) (caller : Caller Command)
    (origin : State) (result : Except Raised Deployment) (state : State) : Prop :=
  (∃ id, caller.command = .get id) ∨
    ∃ start, Evolves environment service origin start ∧ Serial environment service start ∧
      Unseen caller.index start ∧
      Alone environment service caller 0 (service.body caller.command).attempt start
        0 (.pure result) state

/-- Whole sections preserve `keeps`. -/
def Kept (environment : Environment) (service : ReactorService) (keeps : Slot → Prop) : Prop :=
  ∀ ⦃command : Command⦄ ⦃id : Uuid⦄ ⦃old : Option Slot⦄ ⦃calls : List Exchange⦄ ⦃new : Slot⦄
    ⦃result : Except Raised Deployment⦄, Commits environment service command id old calls new result →
    (∀ slot, old = some slot → keeps slot) → keeps new

/-- Between two sections, every slot is one of those that whole sections keep. -/
def discipline (environment : Environment) (service : ReactorService) (keeps : Slot → Prop) :
    Discipline (service.system environment) where
  guarantee caller held state next :=
    Guarantee environment service caller held state next ∧
      (held = true → Underway environment service next)
  lockInvariant state :=
    Serial environment service state ∧
      ∀ id slot, (State.database state).slot id = some slot → keeps slot
  fresh index state := Consistent state ∧ Unseen index state
  lockInvariant_of_unheld := by
    rintro caller state next holds ⟨guaranteed, _⟩
    cases guaranteed
    exact holds
  fresh_of_guarantee := by
    rintro index caller held state next ⟨consistent, unseen⟩ ⟨guaranteed, _⟩ different
    have moves : Moves environment service state next := ⟨caller, held, guaranteed⟩
    refine ⟨moves.consistent consistent, ?_⟩
    cases guaranteed with
    | unheld => exact unseen
    | held performs lawful =>
        obtain ⟨_, _, rfl⟩ := performs
        unfold State.after
        split
        · intro event member
          rcases List.mem_append.mp member with earlier | last
          · exact unseen event earlier
          · rw [List.mem_singleton.mp last]
            exact different
        · exact unseen

section Keeping

variable {environment : Environment} {service : ReactorService} {keeps : Slot → Prop}

theorem discipline_exclusive : (discipline environment service keeps).Exclusive := by
  rintro caller state next ⟨guaranteed, _⟩
  cases guaranteed
  rfl

theorem evolves_of_rely {caller : Caller Command} {held : Bool} {state next : State}
    (relied : (discipline environment service keeps).rely caller held state next) :
    Evolves environment service state next :=
  relied.lift id fun _ _ interferes => by
    obtain ⟨other, otherHeld, _, _, guaranteed, _⟩ := interferes
    exact ⟨other, otherHeld, guaranteed⟩

/-- What is kept by every outcome of a section is kept by the whole store. -/
theorem Served.kept {caller : Caller Command} {origin state : State}
    {outcome : Except Raised Deployment}
    (kept : Kept environment service keeps)
    (served : Served environment service caller origin outcome state)
    (before : ∀ id slot, origin.database.slot id = some slot → keeps slot) :
    ∀ id slot, state.database.slot id = some slot → keeps slot := by
  cases served with
  | idle idle =>
      rw [idle.untouched]
      exact before
  | @committed target new calls recent commits inside =>
      intro id slot here
      by_cases same : id = target
      · subst same
        rw [inside.here, Option.some.injEq] at here
        subst here
        exact kept commits (before id)
      · rw [inside.elsewhere id same] at here
        exact before id slot here

/-- The service's programs, verified while other threads run. -/
abbrev Concurrently {α : Type} (environment : Environment) (service : ReactorService)
    (keeps : Slot → Prop) (caller : Caller Command) (program : Service α)
    (post : Except Raised α → State → Prop) (state : State) : Prop :=
  (discipline environment service keeps).Verified caller 0 program.run post state

namespace Concurrently

variable {caller : Caller Command} {state : State} {α β : Type}

theorem bind {first : Service α} {next : α → Service β} {post : Except Raised β → State → Prop}
    (holds : Concurrently environment service keeps caller first (fun outcome after =>
      match outcome with
      | .ok value => Concurrently environment service keeps caller (next value) post after
      | .error raised => post (.error raised) after) state) :
    Concurrently environment service keeps caller (first >>= next) post state := by
  unfold Concurrently
  rw [ExceptT.run_bind]
  refine Discipline.Verified.bind (holds.mono fun outcome after rest => ?_)
  cases outcome with
  | ok value => exact rest
  | error raised => exact ⟨rfl, rest⟩

theorem pure {value : β} {post : Except Raised β → State → Prop} (holds : post (.ok value) state) :
    Concurrently environment service keeps caller (Pure.pure value) post state :=
  ⟨rfl, holds⟩

theorem throw {raised : Raised} {post : Except Raised β → State → Prop}
    (holds : post (.error raised) state) :
    Concurrently environment service keeps caller (MonadExcept.throw raised) post state :=
  ⟨rfl, holds⟩

/-- A call made without the lock leaves no trace; the state it is answered in is
one the other threads have reached. -/
theorem call {op : Op} {post : Except Raised op.Answer → State → Prop}
    (traceless : ∀ database, op.effect database = database)
    (holds : ∀ before answer, Evolves environment service state before →
      (discipline environment service keeps).rely caller false state before →
      Answers before op answer → post (.ok answer) before) :
    Concurrently environment service keeps caller (call op) post state := by
  intro before relied answer after does
  obtain ⟨_, answers, rfl⟩ := does
  have unchanged : State.after before caller (decide (0 < 0)) op answer = before := by
    simp only [State.after, traceless, Nat.lt_irrefl, decide_false, Bool.false_and,
      Bool.false_eq_true, if_false]
    rfl
  have unheld : Guarantee environment service caller false before before := .unheld
  rw [unchanged]
  exact ⟨⟨unheld, fun held => by cases held⟩, rfl,
    holds before answer (evolves_of_rely relied) relied answers⟩

/-- A section under the lock: it runs alone, from a state between two sections
to another. -/
theorem locked {body : Service Deployment} {post : Except Raised Deployment → State → Prop}
    (kept : Kept environment service keeps)
    (fresh : Consistent state ∧ Unseen caller.index state)
    (section' : ∀ before, Evolves environment service state before →
      Consistent before → Section service before caller body)
    (holds : ∀ outcome before after, Evolves environment service state before →
      Serial environment service before → Unseen caller.index before →
      Alone environment service caller 0 (Fallible.locked body).attempt before
        0 (.pure outcome) after → post outcome after) :
    Concurrently environment service keeps caller (Fallible.locked body) post state := by
  have verified : (discipline environment service keeps).Verified caller 0
      ((Program.locked body.run).bind .pure) post state := by
    refine Discipline.Verified.locked discipline_exclusive fun before relied invariant => ?_
    obtain ⟨serial, keep⟩ := invariant
    obtain ⟨consistent, unseen⟩ :=
      (discipline environment service keeps).fresh_of_rely fresh relied
    have here := section' before (evolves_of_rely relied) consistent
    have held : InSection environment service caller body
      (Served environment service caller before) before := here.inSection consistent unseen
    -- Every state of the section is reached by running it alone from `before`.
    have traced := Held.traced_locked held
    refine (traced.weaken fun state next both => ?_).mono fun outcome after ended => ?_
    · exact ⟨both.1, fun _ => ⟨before, caller, body, serial, unseen, here, both.2⟩⟩
    · have finished := ended.2.release_last
      exact ⟨⟨serial.next unseen here finished, ended.1.kept kept keep⟩, rfl,
        holds outcome before after (evolves_of_rely relied) serial unseen finished⟩
  rw [Program.bind_pure] at verified
  exact verified

/-- Every command but a read is one section. -/
theorem command
    (kept : Kept environment service keeps)
    (fresh : Consistent state ∧ Unseen caller.index state)
    (locks : ∀ id, caller.command ≠ .get id) :
    Concurrently environment service keeps caller (service.body caller.command)
      (Finished environment service caller state) state := by
  have body := service.body_eq_locked locks
  rw [body]
  refine locked kept fresh (fun _ _ _ => .command locks)
    fun outcome before after evolves serial unseen ran =>
      .inr ⟨before, evolves, serial, unseen, ?_⟩
  rw [body]
  exact ran

/-- What a read knows about the deployment it read first. -/
theorem unchanged {read now : State} {id : Uuid} {slot current : Slot}
    (evolves : Evolves environment service read now) (consistent : Consistent read)
    (here : read.database.slot id = some slot) (there : now.database.slot id = some current)
    (live : slot.deployment.observedState = .ready ∨ slot.deployment.observedState = .degraded)
    (same : current.deployment.resourceVersion = slot.deployment.resourceVersion) :
    current = slot := by
  obtain ⟨new, found, transitions⟩ := evolves.slot consistent here
  rw [there, Option.some.injEq] at found
  subst found
  exact Transition.unchanged transitions live same

theorem inspectExecution {deployment : Deployment} {endpoint : Endpoint} {executionRef : String}
    {post : Except Raised EngineObservation → State → Prop}
    (holds : ∀ before outcome, Evolves environment service state before →
      (discipline environment service keeps).rely caller false state before →
      post outcome before) :
    Concurrently environment service keeps caller
      (service.inspectExecution deployment endpoint executionRef) post state := by
  have silent : ∀ outcome, post outcome state := fun outcome =>
    holds state outcome .refl .refl
  have ask : ∀ engine identity version, Concurrently environment service keeps caller
      (port engine (.inspect executionRef endpoint.url deployment.id identity version)) post
        state :=
    fun engine identity version => bind (call (fun _ => rfl) fun before answer evolves relied _ =>
      ⟨rfl, holds before answer evolves relied⟩)
  obtain ⟨model, placed⟩ := servingArtifact_validated deployment
  unfold ReactorService.inspectExecution
  rw [placed]
  refine bind ⟨rfl, bind ⟨rfl, ?_⟩⟩
  cases service.engineFor deployment.servingBindingId with
  | error raised => exact silent _
  | ok engine =>
      cases runtime : runtimeModelVersion deployment with
      | none => exact ask engine model.digest none
      | some version =>
          simp only
          rw [servingIdentity_composed runtime]
          refine bind ⟨rfl, ?_⟩
          cases requireModelVersionKeyword engine .inspect with
          | error raised => exact silent _
          | ok _ => exact bind ⟨rfl, ask engine version.id (some version)⟩

/-- The rows a reconcile was computed from are those stored, if the version is. -/
theorem sameRows {first second now : State} {id : Uuid} {slot current : Slot} {endpointId : Uuid}
    {endpoint : Endpoint} (consistent : Consistent first)
    (here : first.database.slot id = some slot)
    (names : slot.deployment.endpointId = some endpointId)
    (live : slot.deployment.observedState = .ready ∨ slot.deployment.observedState = .degraded)
    (between : Evolves environment service first second)
    (read : second.database.getEndpoint endpointId = some endpoint)
    (evolves : Evolves environment service second now)
    (there : now.database.slot id = some current)
    (same : current.deployment.resourceVersion = slot.deployment.resourceVersion) :
    current.deployment = slot.deployment ∧ current.endpoint = some endpoint := by
  have unmoved : current = slot :=
    unchanged (between.trans evolves) consistent here there live same
  subst unmoved
  obtain ⟨middle, found, before⟩ := between.slot consistent here
  obtain ⟨last, found', after⟩ := evolves.slot (between.consistent consistent) found
  rw [there, Option.some.injEq] at found'
  subst found'
  -- Nothing happened in between either, because versions only grow.
  have still : middle = current := by
    have lower := Transition.versions before
    have upper := Transition.versions after
    exact Transition.unchanged before live (by omega)
  subst still
  obtain ⟨_, _, stored, _⟩ := Database.slot_eq_some found
  refine ⟨rfl, ?_⟩
  rw [stored, names]
  exact read

theorem getDeployment
    (kept : Kept environment service keeps)
    (fresh : Consistent state ∧ Unseen caller.index state) {id : Uuid}
    (command : caller.command = .get id) :
    Concurrently environment service keeps caller (service.getDeployment id)
      (Finished environment service caller state) state := by
  have done : ∀ outcome after, Finished environment service caller state outcome after :=
    fun _ _ => .inl ⟨id, command⟩
  have observe : ∀ {read : State} {slot : Slot} {endpointId : Uuid}, Consistent read →
      Unseen caller.index read → read.database.slot id = some slot →
      slot.deployment.endpointId = some endpointId →
      (slot.deployment.observedState = .ready ∨ slot.deployment.observedState = .degraded) →
      Concurrently environment service keeps caller
        (service.observeLive slot.deployment endpointId)
        (Finished environment service caller state) read := by
    intro read slot endpointId consistent unseen here names live
    have fresh : (discipline environment service keeps).fresh caller.index read :=
      ⟨consistent, unseen⟩
    refine bind (bind (call (fun _ => rfl) fun looked endpoint? between relied answers => ?_))
    have fresh := (discipline environment service keeps).fresh_of_rely fresh relied
    match endpoint?, answers with
    | none, _ => exact throw (done _ _)
    | some (endpoint : Endpoint), answers =>
        refine pure (bind (call (fun _ => rfl) fun known evidence toKnown relied _ => ?_))
        have fresh := (discipline environment service keeps).fresh_of_rely fresh relied
        match evidence with
        | none => exact pure (done _ _)
        | some (executionRef : String) =>
            refine bind (inspectExecution fun observed outcome toObserved relied => ?_)
            have fresh := (discipline environment service keeps).fresh_of_rely fresh relied
            match outcome with
            | .error raised => exact done _ _
            | .ok observation =>
                change Concurrently environment service keeps caller
                  (reconcile slot.deployment endpoint observation) _ observed
                unfold ReactorService.reconcile
                split
                · refine bind (call (fun _ => rfl) fun timed now toTimed relied _ => ?_)
                  have fresh := (discipline environment service keeps).fresh_of_rely fresh relied
                  refine locked kept fresh (fun before toBefore _ => ?_) fun _ _ _ _ _ _ _ => done _ _
                  have later := ((toKnown.trans toObserved).trans toTimed).trans toBefore
                  obtain ⟨current, there, _⟩ :=
                    Evolves.slot (between.trans later) consistent here
                  exact .reconcile command there (Database.slot_eq_some here).2.1 live
                    (sameRows consistent here names live between answers.symm later there)
                · exact pure (done _ _)
  refine bind (bind (call (fun _ => rfl) fun read found evolves relied answers => ?_))
  obtain ⟨consistent, unseen⟩ : Consistent read ∧ Unseen caller.index read :=
    (discipline environment service keeps).fresh_of_rely fresh relied
  match found, answers with
  | none, _ => exact throw (done _ _)
  | some (deployment : Deployment), answers =>
      have here := Database.slot_of_getDeployment answers.symm
      refine pure ?_
      dsimp only
      split
      · exact observe consistent unseen here (by assumption) (.inl (by assumption))
      · exact observe consistent unseen here (by assumption) (.inr (by assumption))
      · exact pure (done _ _)

end Concurrently

end Keeping

/-- A pool of commands that some interleaving reaches from an empty database. -/
abbrev Reached (environment : Environment) (service : ReactorService)
    (pool : Pool (service.system environment)) : Prop :=
  @Reachable (service.system environment) State.initial pool

section Pools

variable {environment : Environment} {service : ReactorService} {keeps : Slot → Prop}

theorem bodies
    (kept : Kept environment service keeps)
    (index : Nat) (command : Command) (state : State)
    (fresh : (discipline environment service keeps).fresh index state) :
    (discipline environment service keeps).Verified ⟨index, command⟩ 0
      (service.body command).attempt (Finished environment service ⟨index, command⟩ state) state := by
  cases command with
  | get id =>
      have fresh : Consistent state ∧ Unseen index state := fresh
      exact Concurrently.getDeployment kept fresh rfl
  | create | stop | restart => exact Concurrently.command kept fresh (fun _ same => by cases same)

variable {pool next : Pool (service.system environment)}

private theorem runs (kept : Kept environment service keeps) (index : Nat) (command : Command)
    (state : State) (fresh : (discipline environment service keeps).fresh index state) :
    (discipline environment service keeps).Verified ⟨index, command⟩ 0
      (service.body command).attempt (fun _ _ => True) state :=
  (bodies kept index command state fresh).mono fun _ _ _ => trivial

/-- Every pool is sound, for anything whole sections keep. -/
theorem Reached.sound (kept : Kept environment service keeps)
    (reached : Reached environment service pool) :
    (discipline environment service keeps).Sound (fun _ _ _ => True) pool :=
  Discipline.Sound.of_reachable (runs kept)
    ⟨.initial, fun _ _ here => by cases here⟩
    (fun _ => ⟨initial_consistent, fun _ member => absurd member List.not_mem_nil⟩) reached

/-- With the lock free, every slot is one that whole sections keep. -/
theorem Reached.kept
    (kept : Kept environment service keeps)
    (reached : Reached environment service pool) (quiescent : pool.Quiescent) {id : Uuid}
    {slot : Slot} (here : (State.database pool.state).slot id = some slot) : keeps slot :=
  ((reached.sound kept).invariant quiescent).2 id slot here

private theorem kept_trivially : Kept environment service fun _ => True :=
  fun _ _ _ _ _ _ _ _ => trivial

theorem Reached.step (reached : Reached environment service pool) (step : Step pool next) :
    Moves environment service pool.state next.state ∧
      (next.state = pool.state ∨ Underway environment service next.state) := by
  have sound := reached.sound kept_trivially
  have starts := fun command =>
    runs kept_trivially _ command pool.state (sound.fresh (Nat.le_refl _))
  rcases (sound.step starts step).2 with same | ⟨caller, held, guaranteed, under⟩
  · rw [same]
    exact ⟨⟨⟨0, .get ⟨0⟩⟩, false, .unheld⟩, .inl rfl⟩
  · refine ⟨⟨caller, held, guaranteed⟩, ?_⟩
    cases held with
    | true => exact .inr (under rfl)
    | false =>
        have exclusive : (discipline environment service fun _ => True).Exclusive :=
          discipline_exclusive
        exact .inl (exclusive _ _ _ ⟨guaranteed, under⟩)

theorem Reached.evolves (reached : Reached environment service pool)
    (run : Relation.ReflTransGen Step pool next) :
    Evolves environment service pool.state next.state ∧ Reached environment service next := by
  induction run with
  | refl => exact ⟨.refl, reached⟩
  | tail _ step ih => exact ⟨ih.1.tail (ih.2.step step).1, Reachable.step ih.2 step⟩

theorem Reached.consistent (reached : Reached environment service pool) :
    Consistent pool.state := by
  have start : Reached environment service (Pool.initial State.initial) := .refl
  exact (start.evolves reached).1.consistent initial_consistent

/-- Between sections the state is one a serial execution ends in. -/
theorem Reached.serial (reached : Reached environment service pool)
    (quiescent : pool.Quiescent) : Serial environment service pool.state :=
  ((reached.sound kept_trivially).invariant quiescent).1

/-- At any moment the state is one a serial execution passes through. -/
theorem Reached.underway (reached : Reached environment service pool) :
    Serial environment service pool.state ∨ Underway environment service pool.state := by
  induction reached with
  | refl => exact .inl .initial
  | tail before step ih =>
      rcases (Reached.step before step).2 with same | under
      · rw [same]
        exact ih
      · exact .inr under

theorem Reached.unseen_of_later (reached : Reached environment service pool) {index : Nat}
    (later : pool.threads.length ≤ index) : Unseen index pool.state :=
  ((reached.sound kept_trivially).fresh later).2

/-- A command over in `next` that was not begun in `pool` was a read, or ran alone. -/
theorem Reached.finished_unbegun (reached : Reached environment service pool)
    (run : Relation.ReflTransGen Step pool next) {index depth : Nat} {command : Command}
    {result : Except Raised Deployment} (unseen : Unseen index pool.state)
    (unbegun : ∀ thread, pool.threads[index]? = some thread → ∃ asked, thread = Thread.start asked)
    (found : next.threads[index]? = some ⟨command, depth, .pure result⟩) :
    ∃ finish, Evolves environment service finish next.state ∧
      Finished environment service ⟨index, command⟩ pool.state result finish := by
  obtain ⟨began, finish, path, relied, finished⟩ := (reached.sound kept_trivially).finished
    (bodies kept_trivially) run ⟨reached.consistent, unseen⟩ unbegun found
  refine ⟨finish, evolves_of_rely relied, ?_⟩
  have before : Evolves environment service pool.state began :=
    path.lift id fun _ _ ⟨caller, held, guaranteed, _⟩ => ⟨caller, held, guaranteed⟩
  exact finished.imp_right fun ⟨start, evolves, rest⟩ => ⟨start, before.trans evolves, rest⟩

/-- A command started after `pool` and over in `next` was a read, or ran alone. -/
theorem Reached.finished (reached : Reached environment service pool)
    (run : Relation.ReflTransGen Step pool next) {index depth : Nat} {command : Command}
    {result : Except Raised Deployment} (started : pool.threads.length ≤ index)
    (found : next.threads[index]? = some ⟨command, depth, .pure result⟩) :
    ∃ finish, Evolves environment service finish next.state ∧
      Finished environment service ⟨index, command⟩ pool.state result finish := by
  refine reached.finished_unbegun run (reached.unseen_of_later started) ?_ found
  intro thread here
  rw [List.getElem?_eq_none started] at here
  cases here

end Pools

end CyreneReactor
