import CyreneReactor.Diagnostics.Discipline

namespace CyreneReactor.Diagnostics

open Interaction DiagnosticsService

/-! Every request keeps the discipline, and raises only for one of the reasons. -/

variable {service : DiagnosticsService} {environment : Environment} {caller : Caller Command}
  {state : State} {α β : Type}

/-- The program keeps the discipline from `state` on; what it returns satisfies `good`
together with the caller's events, and what it raises is excused. -/
abbrev Steady (service : DiagnosticsService) (environment : Environment)
    (caller : Caller Command) (program : Diagnosing α) (good : α → List Event → Prop)
    (state : State) : Prop :=
  (discipline service environment).LockFree caller false program.run
    (fun outcome after =>
      match outcome with
      | .ok value => good value (own caller (State.journal after))
      | .error failure => Excuse service caller (own caller (State.journal after)) failure) state

namespace Steady

variable {good : β → List Event → Prop} {mine : List Event}

theorem pure {value : β} (holds : good value (own caller state.journal)) :
    Steady service environment caller (pure value) good state := holds

theorem throw {failure : Failure}
    (excuse : Excuse service caller (own caller state.journal) failure) :
    Steady service environment caller (throw failure : Diagnosing β) good state := excuse

theorem bind {first : Diagnosing α} {next : α → Diagnosing β} {middle : α → List Event → Prop}
    (verified : Steady service environment caller first middle state)
    (rest : ∀ value after, middle value (own caller (State.journal after)) →
      Steady service environment caller (next value) good after) :
    Steady service environment caller (first >>= next) good state := by
  refine Discipline.LockFree.bind_run (verified.mono fun outcome after holds => ?_)
  cases outcome with
  | ok value => exact rest value after holds
  | error failure => exact holds

theorem ofExcept_bind {outcome : Except Failure α} {next : α → Diagnosing β}
    (raises : ∀ failure, outcome = .error failure →
      Excuse service caller (own caller state.journal) failure)
    (returns : ∀ value, outcome = .ok value →
      Steady service environment caller (next value) good state) :
    Steady service environment caller (Fallible.ofExcept outcome >>= next) good state :=
  Discipline.LockFree.ofExcept_bind raises returns

theorem stable {held : Bool} (mine : List Event) :
    (discipline service environment).Stable caller held fun state =>
      own caller (State.journal state) = mine := by
  rintro before after ⟨other, _, different, _, op, answer, performs, _⟩ known
  rw [performs.journal, own_append_other fun same => different (congrArg Caller.index same), known]

/-- One call: what the caller has done grows by it, and by nothing else. -/
theorem call_bind {op : Op} {next : op.Answer → Diagnosing β}
    (known : own caller state.journal = mine) (permits : Permits service caller mine op)
    (rest : ∀ before answer after, Performs service environment caller op before answer after →
      own caller after.journal = mine ++ [⟨caller, op, answer⟩] →
      Steady service environment caller (next answer) good after) :
    Steady service environment caller (call op >>= next) good state := by
  refine Discipline.LockFree.call_bind (stable mine) known
    fun before answer after knownBefore does => ?_
  have performs : Performs service environment caller op before answer after := does
  refine ⟨⟨op, answer, performs, knownBefore ▸ permits⟩, ?_⟩
  refine rest before answer after performs ?_
  exact performs.own_after.trans (congrArg (· ++ _) knownBefore)

theorem call {op : Op} {good : op.Answer → List Event → Prop}
    (known : own caller state.journal = mine) (permits : Permits service caller mine op)
    (holds : ∀ answer, good answer (mine ++ [⟨caller, op, answer⟩])) :
    Steady service environment caller (call op) good state := by
  have direct : Steady service environment caller (Diagnostics.call op >>= Pure.pure) good state :=
    call_bind known permits fun _ answer after _ grown => by
      have ends := holds answer
      rw [← grown] at ends
      exact ends
  rwa [bind_pure] at direct

end Steady

section Harvest

variable {id : Uuid} {afterSequence limit cursor : Int} {page : Members} {mine : List Event}

/-- A page was fetched, and nothing has come of it. -/
structure Ready (mine : List Event) (cursor : Int) (page : Members) : Prop where
  fetched : Fetched mine cursor page
  unused : ∀ event ∈ mine, event.appends = false ∧ event.saves = false

theorem Ready.append {event : Event} (ready : Ready mine cursor page)
    (idle : event.appends = false ∧ event.saves = false) : Ready (mine ++ [event]) cursor page := by
  refine ⟨ready.fetched.mono (List.prefix_append _ _), fun other member => ?_⟩
  rcases List.mem_append.mp member with earlier | last
  · exact ready.unused other earlier
  · rw [List.mem_singleton.mp last]
    exact idle

/-- The documents are those of the page. -/
def PageDocuments (service : DiagnosticsService) (id : Uuid) (page : Members)
    (documents : List Members) : Prop :=
  documents = service.runtimeDocuments id page ∨
    ∃ now, documents = service.runtimeDocuments id page ++ [degradedDocument id now]

theorem pageDocuments_steady (ready : Ready (own caller state.journal) cursor page) :
    Steady service environment caller (service.pageDocuments id page)
      (fun documents mine => PageDocuments service id page documents ∧ Ready mine cursor page)
      state := by
  unfold DiagnosticsService.pageDocuments
  split
  · refine Steady.call_bind rfl trivial fun _ now after _ grown => Steady.pure ⟨.inr ⟨now, rfl⟩, ?_⟩
    rw [grown]
    exact ready.append ⟨rfl, rfl⟩
  · exact Steady.pure ⟨.inl rfl, ready⟩

theorem appendDocuments_steady {documents : List Members}
    (command : caller.command = .diagnostics id afterSequence limit)
    (shape : PageDocuments service id page documents)
    (ready : Ready (own caller state.journal) cursor page) :
    Steady service environment caller (appendDocuments id documents)
      (fun _ mine => Fetched mine cursor page ∧ (∀ event ∈ mine, event.saves = false) ∧
        (service.runtimeDocuments id page ≠ [] → ∃ event ∈ mine, event.appends = true)) state := by
  cases documents with
  | nil =>
      refine Steady.pure ⟨ready.fetched, fun event member => (ready.unused event member).2,
        fun some => absurd ?_ some⟩
      rcases shape with same | ⟨now, same⟩
      · exact same.symm
      · simp at same
  | cons document rest =>
      have source : Source service caller (own caller state.journal) (document :: rest) := by
        rw [Source, command]
        exact ⟨cursor, page, ready.fetched, shape⟩
      refine Steady.call rfl ⟨by rw [command]; rfl, source, ready.unused⟩ fun _ => ⟨?_, ?_, ?_⟩
      · exact ready.fetched.mono (List.prefix_append _ _)
      · intro event member
        rcases List.mem_append.mp member with earlier | last
        · exact (ready.unused event earlier).2
        · rw [List.mem_singleton.mp last]
          rfl
      · exact fun _ => ⟨_, List.mem_append_right _ (List.mem_singleton.mpr rfl), rfl⟩

theorem saveCursor_steady (command : caller.command = .diagnostics id afterSequence limit)
    (fetched : Fetched (own caller state.journal) cursor page)
    (unsaved : ∀ event ∈ own caller state.journal, event.saves = false)
    (persisted : service.runtimeDocuments id page ≠ [] →
      ∃ event ∈ own caller state.journal, event.appends = true) :
    Steady service environment caller (saveCursor id page) (fun _ _ => True) state := by
  unfold saveCursor
  cases next : pageNext page with
  | none => exact Steady.pure trivial
  | some sequence =>
      refine Steady.call_bind rfl ⟨⟨_, _, command⟩, unsaved, cursor, page, fetched, next,
        persisted⟩ fun before saved after performs grown => ?_
      by_cases fits : storable sequence = true
      · have answered : saved = .ok () := performs.answers.trans (if_pos fits)
        subst answered
        exact Steady.pure trivial
      · have answered : saved = .error .overflowError := performs.answers.trans (if_neg fits)
        subst answered
        have kept : Fetched (own caller after.journal) cursor page :=
          grown ▸ fetched.mono (List.prefix_append _ _)
        exact Steady.throw (.cursor kept next (by simpa using fits))

theorem persistPage_steady (command : caller.command = .diagnostics id afterSequence limit)
    (ready : Ready (own caller state.journal) cursor page) :
    Steady service environment caller (service.persistPage id page) (fun _ _ => True) state := by
  refine Steady.bind (pageDocuments_steady ready) fun documents shaped known => ?_
  refine Steady.bind (appendDocuments_steady command known.1 known.2) fun _ stored known => ?_
  refine Steady.bind (saveCursor_steady command known.1 known.2.1 known.2.2) fun _ _ _ => ?_
  exact Steady.pure trivial

theorem Fresh.append {event : Event} (fresh : Fresh mine)
    (reads : event.requests = false ∧ event.appends = false ∧ event.saves = false) :
    Fresh (mine ++ [event]) := by
  intro other member
  rcases List.mem_append.mp member with earlier | last
  · exact fresh other earlier
  · rw [List.mem_singleton.mp last]
    exact reads

theorem harvestFrom_steady {engine : Engine} {executionRef : String}
    (command : caller.command = .diagnostics id afterSequence limit)
    (fresh : Fresh (own caller state.journal)) :
    Steady service environment caller (service.harvestFrom engine id executionRef)
      (fun _ _ => True) state := by
  refine Steady.call_bind rfl trivial fun _ cursor read _ grown => ?_
  have fresh : Fresh (own caller read.journal) := grown ▸ fresh.append ⟨rfl, rfl, rfl⟩
  refine Steady.call_bind rfl fresh fun _ reply replied _ grown => ?_
  refine Steady.ofExcept_bind (fun failure raises => ?_) fun page sent => ?_
  · have raised : ∃ raised, reply = .error raised ∧ failure = .raised raised := by
      unfold readDiagnostics at raises
      split at raises
      · cases raises
      · cases raises
      · cases raises
        exact ⟨_, rfl, rfl⟩
      · split at raises <;> cases raises
    obtain ⟨raised, rfl, rfl⟩ := raised
    have asked : ⟨caller, .request engine executionRef cursor 500, .error raised⟩ ∈
        own caller replied.journal := by
      rw [grown]
      exact List.mem_append_right _ (List.mem_singleton.mpr rfl)
    exact .binding asked
  · cases page with
    | none => exact Steady.pure trivial
    | some page =>
        have ready : Ready (own caller replied.journal) cursor page := by
          refine ⟨⟨⟨caller, .request engine executionRef cursor 500, reply⟩, ?_, ?_⟩, ?_⟩
          · rw [grown]
            exact List.mem_append_right _ (List.mem_singleton.mpr rfl)
          · simp only [Event.fetched?, sent]
          · intro event member
            rw [grown] at member
            rcases List.mem_append.mp member with earlier | last
            · exact (fresh event earlier).2
            · rw [List.mem_singleton.mp last]
              exact ⟨rfl, rfl⟩
        exact persistPage_steady command ready

theorem harvest_steady {deployment : Deployment}
    (command : caller.command = .diagnostics deployment.id afterSequence limit)
    (fresh : Fresh (own caller state.journal)) :
    Steady service environment caller (service.harvestRuntimeDiagnostics deployment)
      (fun _ _ => True) state := by
  refine Steady.call_bind rfl trivial fun _ executionRef read _ grown => ?_
  have fresh : Fresh (own caller read.journal) := grown ▸ fresh.append ⟨rfl, rfl, rfl⟩
  cases executionRef with
  | none => exact Steady.pure trivial
  | some executionRef =>
      refine Steady.ofExcept_bind (fun failure raises => ?_) fun engine _ => ?_
      · cases found : service.reactor.engineFor deployment.servingBindingId with
        | ok engine =>
            rw [found] at raises
            cases raises
        | error raised =>
            rw [found] at raises
            cases raises
            exact .unbound found
      · split
        · exact harvestFrom_steady command fresh
        · exact Steady.pure trivial

end Harvest

theorem validateAll_error {printer : Printer} {documents : List Members} {failure : Failure}
    (refused : validateAll printer documents = .error failure) :
    failure = .validationError ∧
      ∃ document ∈ documents, DiagnosticRecord.modelValidate printer document = none := by
  induction documents with
  | nil => cases refused
  | cons document rest ih =>
      simp only [validateAll] at refused
      cases valid : DiagnosticRecord.modelValidate printer document with
      | none =>
          rw [valid] at refused
          cases refused
          exact ⟨rfl, document, List.mem_cons_self, valid⟩
      | some record =>
          rw [valid] at refused
          cases others : validateAll printer rest with
          | ok records =>
              rw [others] at refused
              cases refused
          | error other =>
              rw [others] at refused
              cases refused
              obtain ⟨same, bad, member, invalid⟩ := ih others
              exact ⟨same, bad, List.mem_cons_of_mem _ member, invalid⟩

theorem readPage_steady {deployment : Deployment} {id : Uuid} {afterSequence limit : Int}
    (command : caller.command = .diagnostics id afterSequence limit) (degraded : Bool) :
    Steady service environment caller (service.readPage deployment id afterSequence limit degraded)
      (fun _ _ => True) state := by
  refine Steady.call_bind rfl trivial fun before listed after performs grown => ?_
  by_cases fits : storable afterSequence = true
  · have answered : listed =
        .ok (listDeploymentDiagnostics before.database id afterSequence limit) :=
      performs.answers.trans (if_pos fits)
    subst answered
    refine Steady.ofExcept_bind (fun failure raises => by cases raises) fun documents read => ?_
    cases read
    refine Steady.ofExcept_bind (fun failure refused => ?_) fun records _ => ?_
    · obtain ⟨rfl, invalid⟩ := validateAll_error refused
      have listed : ⟨caller, .listDeploymentDiagnostics id afterSequence limit,
          .ok (listDeploymentDiagnostics before.database id afterSequence limit)⟩ ∈
          own caller after.journal := by
        rw [grown]
        exact List.mem_append_right _ (List.mem_singleton.mpr rfl)
      exact .invalid listed rfl invalid
    · cases degraded with
      | true => exact Steady.pure trivial
      | false => exact Steady.call_bind rfl trivial fun _ _ _ _ _ => Steady.pure trivial
  · have answered : listed = .error .overflowError := performs.answers.trans (if_neg fits)
    subst answered
    exact Steady.throw (.afterSequence command (by simpa using fits))

theorem deploymentDiagnostics_steady {id : Uuid} {afterSequence limit : Int}
    (command : caller.command = .diagnostics id afterSequence limit)
    (fresh : own caller state.journal = []) :
    Steady service environment caller (service.deploymentDiagnostics id afterSequence limit)
      (fun _ _ => True) state := by
  unfold deploymentDiagnostics
  split
  · rename_i below
    exact Steady.throw (.negative command below)
  · refine Steady.call_bind fresh trivial fun before found after performs grown => ?_
    have idle : Fresh (own caller after.journal) := by
      rw [grown]
      intro event member
      rw [List.mem_singleton.mp member]
      exact ⟨rfl, rfl, rfl⟩
    cases found with
    | none =>
        have absent : ⟨caller, .getDeployment id, none⟩ ∈ own caller after.journal := by
          rw [grown]
          exact List.mem_singleton.mpr rfl
        exact Steady.throw (.missing absent)
    | some deployment =>
        have named : deployment.id = id := performs.answers deployment rfl
        subst named
        exact Steady.bind (harvest_steady command idle) fun degraded _ _ =>
          readPage_steady command degraded

theorem recordDeploymentDiagnostic_steady {id : Uuid} {message level : String}
    {code : Option String} (command : caller.command = .record id message level code)
    (fresh : own caller state.journal = []) :
    Steady service environment caller (recordDeploymentDiagnostic id message level code)
      (fun _ _ => True) state := by
  refine Steady.call_bind fresh trivial fun _ now after _ grown => ?_
  have source : Source service caller (own caller after.journal)
      [productDocument id now message level code] := by
    rw [Source, command]
    exact ⟨now, rfl⟩
  refine Steady.call rfl ⟨by rw [command]; rfl, source, fun event member => ?_⟩ fun _ => trivial
  rw [grown] at member
  rw [List.mem_singleton.mp member]
  exact ⟨rfl, rfl⟩

theorem own_of_fresh {journal : List Event}
    (fresh : ∀ event ∈ journal, event.caller.index ≠ caller.index) : own caller journal = [] := by
  refine List.filter_eq_nil_iff.mpr fun event member => ?_
  simpa using fun same => fresh event member (congrArg Caller.index same)

/-- Every request, from a state it has not touched. -/
theorem bodies (index : Nat) (command : Command) (state : State)
    (fresh : (discipline service environment).fresh index state) :
    (discipline service environment).Verified ⟨index, command⟩ 0 (service.body command).run
      (Finished service ⟨index, command⟩) state := by
  have unseen : own ⟨index, command⟩ state.journal = [] := own_of_fresh fresh
  have finishes : ∀ {program : Diagnosing (Option DiagnosticsPage)},
      Steady service environment ⟨index, command⟩ program (fun _ _ => True) state →
      (discipline service environment).Verified ⟨index, command⟩ 0 program.run
        (Finished service ⟨index, command⟩) state := by
    intro program steady
    refine Discipline.Verified.unlocked (steady.mono fun outcome after holds failure raised => ?_)
    subst raised
    exact holds
  cases command with
  | diagnostics id afterSequence limit =>
      exact finishes (Steady.bind (deploymentDiagnostics_steady rfl unseen) fun _ _ _ =>
        Steady.pure trivial)
  | record id message level code =>
      exact finishes (Steady.bind (recordDeploymentDiagnostic_steady rfl unseen) fun _ _ _ =>
        Steady.pure trivial)

section Runs

variable {logs : Uuid → List Members} {pool next : Pool (service.system environment)}

theorem sound (reached : Reachable (State.opened logs) pool) :
    (discipline service environment).Sound (Finished service) pool :=
  Discipline.Sound.of_reachable bodies trivial (fun _ _ member => absurd member List.not_mem_nil)
    reached

/-- A step is a permitted call, or it leaves the state alone. -/
theorem permitted (reached : Reachable (State.opened logs) pool) (step : Step pool next) :
    next.state = pool.state ∨ ∃ caller op answer,
      Performs service environment caller op (pool.state : State) answer next.state ∧
        Permits service caller (own caller (State.journal pool.state)) op := by
  have sound := sound reached
  have starts := fun command => bodies _ command pool.state (sound.fresh (Nat.le_refl _))
  rcases (sound.step starts step).2 with same | ⟨caller, _, op, answer, performs, permits⟩
  · exact .inl same
  · exact .inr ⟨caller, op, answer, performs, permits⟩

end Runs

end CyreneReactor.Diagnostics
