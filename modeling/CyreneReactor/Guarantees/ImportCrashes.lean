import CyreneReactor.Guarantees.ImportAdmission
import CyreneReactor.Interaction.Crash

namespace CyreneReactor.ModelImports

open Interaction ImportService

/-! Imports of a process that may stop at any moment.

The tables stay coherent, and nothing is imported twice.  An import whose request was cut
off waits for ever: only that request would have saved its outcome.
-/

section Crashes

variable {service : ImportService} {lost : Except Raised (List ModelImport)}
  {pool next later : Pool service.system}

/-- Every pool that requests and crashes lead to. -/
abbrev Survived (service : ImportService) (lost : Except Raised (List ModelImport))
    (pool : Pool service.system) : Prop :=
  @Survives service.system lost State.initial pool

theorem discipline_durable : (discipline service).Durable := by
  intro caller held state next coherent guaranteed
  rcases Guarantee.permitted guaranteed with same | ⟨op, answer, performs, permits⟩
  · rw [same]
    exact coherent
  · exact Coherent.step coherent performs permits

/-- A request that was not cut off answers what it should. -/
def Ended (service : ImportService) (lost : Except Raised (List ModelImport))
    (caller : Caller Command) (result : Except Raised (List ModelImport)) (state : State) : Prop :=
  result = lost ∨ Finished service caller result state

/-- What a state keeps of an earlier one. -/
structure Follows (service : ImportService) (first last : State) : Prop where
  coherent : Coherent service last
  keeps : Keeps first.database last.database
  grown : first.journal <+: last.journal

theorem Follows.refl {state : State} (coherent : Coherent service state) :
    Follows service state state :=
  ⟨coherent, .refl _, List.prefix_rfl⟩

theorem Follows.step {first state after : State} {caller : Caller Command} {op : Op}
    {answer : op.Answer} (follows : Follows service first state)
    (performs : Performs caller true op state answer after)
    (permits : Permits service caller state op) : Follows service first after where
  coherent := follows.coherent.step performs permits
  keeps := follows.keeps.trans (follows.coherent.keeps performs permits)
  grown := by
    rw [performs.journal, if_pos rfl]
    exact follows.grown.trans (List.prefix_append _ _)

theorem Follows.guaranteed {first state after : State} {caller : Caller Command} {held : Bool}
    (follows : Follows service first state)
    (guaranteed : Guarantee service caller held state after) : Follows service first after := by
  rcases guaranteed.permitted with rfl | ⟨op, answer, performs, permits⟩
  · exact follows
  · exact follows.step performs permits

theorem Follows.relied {first last : State} {caller : Caller Command} {held : Bool}
    (coherent : Coherent service first)
    (relied : (discipline service).rely caller held first last) : Follows service first last := by
  induction relied with
  | refl => exact .refl coherent
  | tail _ step ih =>
      obtain ⟨_, _, _, _, guaranteed⟩ := step
      exact ih.guaranteed guaranteed

section Runs

variable (injective : Function.Injective service.modelImportIdempotencyScope)
include injective

theorem bodies_end (index : Nat) (command : Command) (state : State)
    (fresh : (discipline service).fresh index state) :
    (discipline service).Verified ⟨index, command⟩ 0 (service.system.body command)
      (Ended service lost ⟨index, command⟩) state :=
  (bodies injective index command state fresh).mono fun _ _ finished => .inr finished

theorem Survived.sound (survived : Survived service lost pool) :
    (discipline service).Sound (Ended service lost) pool ∧ Coherent service pool.state :=
  Discipline.Sound.of_survives discipline_durable (bodies_end injective) (fun _ _ => .inl rfl)
    (coherent_initial service) (fun _ _ member => absurd member List.not_mem_nil) survived

/-- What is known, of the requests since and of the tables, when the run goes on. -/
theorem Survived.since (survived : Survived service lost pool)
    (run : Relation.ReflTransGen (CrashStep lost) pool later) :
    (discipline service).Sound (fun caller result state => pool.threads.length ≤ caller.index →
        Ended service lost caller result state ∧ Follows service pool.state state) later ∧
      Follows service pool.state later.state := by
  obtain ⟨sound, coherent⟩ := survived.sound injective
  obtain ⟨sound', _, follows⟩ := sound.since discipline_durable (bodies_end injective)
    (fun _ _ => .inl rfl) (fun follows guaranteed => Follows.guaranteed follows guaranteed)
    coherent (Follows.refl coherent) run
  exact ⟨sound', follows⟩

/-- A step performs one permitted operation of a thread that is not over, or leaves the
state alone. -/
theorem Survived.permitted (survived : Survived service lost pool)
    (step : CrashStep lost pool next) :
    next.state = pool.state ∨ ∃ (index : Nat) (thread : Thread service.system) (op : Op)
      (answer : op.Answer), pool.threads[index]? = some thread ∧
        (∀ result, thread.program ≠ .pure result) ∧
        Performs (thread.caller index) true op (pool.state : State) answer next.state ∧
        Permits service (thread.caller index) pool.state op := by
  cases step with
  | crash => exact .inl rfl
  | step step =>
      rcases (survived.sound injective).1.acted step with
        same | ⟨index, thread, found, busy, guaranteed⟩
      · exact .inl same
      · rcases Guarantee.permitted guaranteed with same | ⟨op, answer, performs, permits⟩
        · exact .inl same
        · exact .inr ⟨index, thread, op, answer, found, busy, performs, permits⟩

theorem Survived.traced (survived : Survived service lost pool) :
    Traced (State.journal pool.state) := by
  induction survived with
  | refl =>
      intro _ _ earlier event later split
      have empty : [] = earlier ++ event :: later := split
      simp at empty
  | @tail middle last before step ih =>
      have survived : Survived service lost middle := before
      have replays := (survived.sound injective).2.replays
      rcases survived.permitted injective step with
        same | ⟨index, thread, op, answer, _, _, performs, permits⟩
      · rw [same]
        exact ih
      · have journal := performs.journal
        simp only [if_true] at journal
        rw [journal]
        intro other unadmitted
        refine untouching_append (ih other fun pending admitted =>
          unadmitted pending admitted.append) fun own => ?_
        subst own
        rw [← replays]
        exact permits.untouching performs unadmitted

/-- Whoever has left an event is a thread of the pool. -/
theorem Survived.callers (survived : Survived service lost pool) :
    ∀ event ∈ State.journal pool.state, event.caller.index < pool.threads.length := by
  intro event member
  by_contra late
  have fresh : ∀ event' ∈ State.journal pool.state, event'.caller.index ≠ event.caller.index :=
    (survived.sound injective).1.fresh (Nat.le_of_not_lt late)
  exact fresh event member rfl

/-- Only requests that came after the crash act after it. -/
theorem Survived.newcomers (survived : Survived service lost pool)
    (run : Relation.ReflTransGen (CrashStep lost) (pool.crashed lost) later) :
    later.Over pool.threads.length ∧ ∃ events,
      State.journal later.state = State.journal pool.state ++ events ∧
        ∀ event ∈ events, pool.threads.length ≤ event.caller.index := by
  have crashed : Survived service lost (pool.crashed lost) := survived.tail (.crash pool)
  refine Discipline.Sound.newcomers ?_ (fun middle before =>
    (Survived.sound injective (crashed.trans before)).1) run
  intro caller held state after guaranteed
  cases guaranteed with
  | read => exact .inl rfl
  | held performs => exact .inr ⟨_, performs.journal, rfl⟩

end Runs

/-- A permitted operation leaves a row, or saves the outcome of the caller's import. -/
theorem Permits.leaves {caller : Caller Command} {op : Op} {state after : State}
    {answer : op.Answer} (performs : Performs caller true op state answer after)
    (permits : Permits service caller state op) {row : ModelImport}
    (member : row ∈ state.database.modelImports.rows) :
    row ∈ after.database.modelImports.rows ∨ Admitted caller row state.journal := by
  rw [performs.database]
  by_cases idle : op.idle = true
  · rw [Op.idle_database idle]
    exact .inl member
  · cases op with
    | store op =>
        cases op with
        | commitModelImportIntent modelImport key digest idempotencyScope scope grants =>
            change row ∈ (state.database.commitModelImportIntent modelImport key digest
              idempotencyScope scope grants).2.modelImports.rows ∨ _
            rcases state.database.commitModelImportIntent_spec modelImport key digest
              idempotencyScope scope grants with ⟨_, same⟩ | ⟨_, admits⟩
            · rw [same]
              exact .inl member
            · rw [admits.modelImports]
              exact .inl (List.mem_append_left _ member)
        | saveModelImport modelImport =>
            obtain ⟨pending, own, present, settles⟩ := permits
            by_cases replaced : row.id = pending.id
            · rw [ImportDatabase.eq_of_id member present replaced]
              exact .inr own
            · refine .inl (Relational.Table.mem_insertOrReplace.mpr (.inl ⟨member, ?_⟩))
              simpa [ModelImport.clash, settles.id] using replaced
        | resolveModelImportRequest | getUnscopedModelImport | getModelImportForWorkspace
        | listModelImports | listModelImportsForWorkspace => exact absurd rfl idle
    | importModel => exact .inl member
    | utcNow | uuid4 | activity => exact absurd rfl idle

section Interrupted

variable (injective : Function.Injective service.modelImportIdempotencyScope)
include injective

/-- No import that waited when the process stopped is ever settled. -/
theorem Survived.waits (survived : Survived service lost pool)
    (run : Relation.ReflTransGen (CrashStep lost) (pool.crashed lost) later) {row : ModelImport}
    (stored : row ∈ (State.database pool.state).modelImports.rows)
    (validating : row.state = .validating) :
    row ∈ (State.database later.state).modelImports.rows := by
  obtain ⟨caller, pending, admitted, shape⟩ :=
    (survived.sound injective).2.tables.admitted row stored
  obtain rfl : row = pending := by
    rcases shape with same | settles
    · exact same
    · exact absurd validating settles.settled
  have early : caller.index < pool.threads.length := by
    obtain ⟨event, member, rfl, _⟩ := admitted
    exact survived.callers injective event member
  induction run with
  | refl => exact stored
  | @tail middle last before step ih =>
      have reached : Survived service lost middle :=
        (Relation.ReflTransGen.tail survived (.crash pool)).trans before
      obtain ⟨idle, events, grown, _⟩ := survived.newcomers injective before
      rcases reached.permitted injective step with
        same | ⟨index, thread, op, answer, found, busy, performs, permits⟩
      · rw [same]
        exact ih
      · rcases permits.leaves performs ih with kept | own
        · exact kept
        · -- The only one who would settle it is over.
          have mine : Admitted caller row (State.journal middle.state) := by
            obtain ⟨event, member, holds⟩ := admitted
            exact ⟨event, grown ▸ List.mem_append_left _ member, holds⟩
          have same := ((reached.sound injective).2.calls.single mine own rfl).1
          have late := idle.mover found busy
          rw [same] at early
          exact absurd early (Nat.not_lt.mpr late)

end Interrupted

/-- What later requests find of an import whose request was cut off. -/
structure Abandoned (service : ImportService) (lost : Except Raised (List ModelImport))
    (pool later : Pool service.system) (row : ModelImport) : Prop where
  waits : row ∈ (State.database later.state).modelImports.rows
  unasked : ∀ (caller : Caller Command) request key scope,
    Admitted caller row (State.journal pool.state) →
    caller.command = .create request (some key) scope →
    ∀ events, State.journal later.state = State.journal pool.state ++ events →
      ∀ event ∈ events, ¬ event.asks scope key
  replayed : ∀ (caller : Caller Command) request key scope,
    Admitted caller row (State.journal pool.state) →
    caller.command = .create request (some key) scope →
    ∀ index depth result, pool.threads.length ≤ index →
      later.threads[index]? = some ⟨.create request (some key) scope, depth, .pure result⟩ →
      result = lost ∨ result = .ok [row]

theorem Survived.abandoned (injective : Function.Injective service.modelImportIdempotencyScope)
    (survived : Survived service lost pool)
    (run : Relation.ReflTransGen (CrashStep lost) (pool.crashed lost) later) {row : ModelImport}
    (stored : row ∈ (State.database pool.state).modelImports.rows)
    (validating : row.state = .validating) : Abandoned service lost pool later row := by
  have crashed : Survived service lost (pool.crashed lost) := survived.tail (.crash pool)
  have reached : Survived service lost later := crashed.trans run
  have length : (pool.crashed lost).threads.length = pool.threads.length := List.length_map _
  have waits := survived.waits injective run stored validating
  obtain ⟨sound, follows⟩ := crashed.since injective run
  obtain ⟨_, events, grown, young⟩ := survived.newcomers injective run
  have coherent := (reached.sound injective).2
  have early : ∀ {caller : Caller Command} {pending : ModelImport},
      Admitted caller pending (State.journal pool.state) →
      caller.index < pool.threads.length := by
    rintro caller pending ⟨event, member, rfl, _⟩
    exact survived.callers injective event member
  have lasts : ∀ {caller : Caller Command} {pending : ModelImport} {journal : List Event},
      State.journal pool.state <+: journal → Admitted caller pending (State.journal pool.state) →
      Admitted caller pending journal := by
    rintro caller pending journal extends' ⟨event, member, holds⟩
    exact ⟨event, extends'.subset member, holds⟩
  refine ⟨waits, ?_, ?_⟩
  · intro caller request key scope admitted command events' grown' event member asks
    obtain rfl : events' = events := List.append_cancel_left (grown'.symm.trans grown)
    obtain ⟨calls, other, command'⟩ := asks
    obtain ⟨pending, holds⟩ := coherent.calls.called event
      (grown ▸ List.mem_append_right _ member) calls
    have same := coherent.sole (lasts follows.grown admitted) holds command command'
    have late := young event member
    rw [← same] at late
    exact absurd (early admitted) (Nat.not_lt.mpr late)
  · intro caller request key scope admitted command index depth result late found
    obtain ⟨since, relied, verified⟩ := sound.verified found
    obtain ⟨ended, since'⟩ := verified.2 (length.symm ▸ late)
    rcases ended with same | finished
    · exact .inl same
    obtain ⟨outcome, rfl, answered⟩ := finished request (some key) scope rfl
    refine .inr ?_
    obtain ⟨asked, used, owner, commanded, admission, recorded⟩ :=
      (survived.sound injective).2.tables.recorded admitted
    rw [command, Command.create.injEq] at commanded
    obtain ⟨rfl, rfl, rfl⟩ := commanded
    have keyed := since'.keeps.keys _ (recorded.keyed key rfl)
    have unadmitted : ∀ pending, ¬ Admitted ⟨index, .create request (some key) scope⟩ pending
        since.journal := by
      intro pending holds
      have same := since'.coherent.sole (lasts since'.grown admitted) holds command rfl
      have early := early admitted
      rw [same] at early
      exact absurd early (Nat.not_lt.mpr late)
    have replays := answered.repeated admission unadmitted key rfl _
      (ImportDatabase.findImportKey_of_mem keyed)
    rw [if_pos rfl] at replays
    obtain ⟨modelImport, rfl, named⟩ := replays
    obtain ⟨present, _⟩ := answered.current modelImport rfl
    -- The row that was found still stands at the end, so it is the one that waits.
    obtain ⟨after, there, moves⟩ := (Follows.relied since'.coherent relied).keeps.imports _ present
    obtain rfl : after = row := ImportDatabase.eq_of_id there waits (moves.id.trans named)
    rcases moves with rfl | ⟨_, settles⟩
    · rfl
    · exact absurd validating settles.settled

/-- What holds of imports however often the process stops. -/
structure ImportsSurvive (service : ImportService) (lost : Except Raised (List ModelImport))
    (pool : Pool service.system) : Prop where
  coherent : Coherent service pool.state
  traced : Traced (State.journal pool.state)
  once : ∀ scope key, (State.journal pool.state).Pairwise fun earlier later =>
    ¬ (earlier.asks scope key ∧ later.asks scope key)
  keeps : ∀ later, Relation.ReflTransGen (CrashStep lost) pool later →
    Keeps (State.database pool.state) (State.database later.state)
  answered : ∀ index request key scope depth result,
    pool.threads[index]? = some ⟨.create request key scope, depth, .pure result⟩ →
    result = lost ∨ ∃ earlier later outcome, State.journal pool.state = earlier ++ later ∧
      result = outcome.map (fun modelImport => [modelImport]) ∧
      Answered service ⟨index, .create request key scope⟩ request key scope outcome
        ⟨replayed earlier, earlier⟩
  abandoned : ∀ later, Relation.ReflTransGen (CrashStep lost) (pool.crashed lost) later →
    ∀ row ∈ (State.database pool.state).modelImports.rows, row.state = .validating →
      Abandoned service lost pool later row

/-- The tables of imports stay coherent over crashes, nothing is imported twice, and what a
cut-off request left waiting is neither settled nor asked for again. -/
theorem imports_survive_crashes (service : ImportService)
    (injective : Function.Injective service.sha256) (lost : Except Raised (List ModelImport))
    {pool : Pool service.system} (survived : Survived service lost pool) :
    ImportsSurvive service lost pool := by
  have scopes := modelImportIdempotencyScope_injective injective
  obtain ⟨sound, coherent⟩ := survived.sound scopes
  constructor
  · exact coherent
  · exact survived.traced scopes
  · intro scope key
    refine coherent.calls.once.imp_of_mem fun {earlier later} first second apart => ?_
    rintro ⟨⟨callsFirst, request, commandFirst⟩, callsSecond, other, commandSecond⟩
    obtain ⟨left, admittedFirst⟩ := coherent.calls.called earlier first callsFirst
    obtain ⟨right, admittedSecond⟩ := coherent.calls.called later second callsSecond
    exact apart callsFirst callsSecond
      (coherent.sole admittedFirst admittedSecond commandFirst commandSecond)
  · exact fun later run => (survived.since scopes run).2.keeps
  · intro index request key scope depth result found
    obtain ⟨since, relied, verified⟩ := sound.verified found
    rcases verified.2 with same | finished
    · exact .inl same
    · obtain ⟨later, extended⟩ := extends_of_rely relied
      obtain ⟨outcome, shape, answered⟩ := finished request key scope rfl
      refine .inr ⟨State.journal since, later, outcome, extended, shape, ?_⟩
      have replays := answered.coherent.replays
      rw [← replays]
      exact answered
  · exact fun later run row stored validating =>
      survived.abandoned scopes run stored validating

end Crashes

namespace Sample

/-- A request that has gone `fuel` steps. -/
def cut (fuel : Nat) : Pool importService.system :=
  importService.play (.ok result)
    [.start (.create request (some "key") (some workspace)), .run 0 fuel]

theorem survived_cut (fuel : Nat) :
    Survived importService (.error (.other .typeError)) (cut fuel) :=
  (importService.play_reached (.ok result) _).lift id fun _ _ => CrashStep.step

end Sample

/-- A request is cut off when its import waits. -/
theorem imports_survive_crashes_sampled :
    (State.database (Sample.cut 8).state).modelImports.rows.map (·.state) = [.validating] ∧
      ImportsSurvive Sample.importService (.error (.other .typeError)) (Sample.cut 8) :=
  ⟨by decide +kernel, imports_survive_crashes Sample.importService Sample.sha256_injective
    (.error (.other .typeError)) (Sample.survived_cut 8)⟩

end CyreneReactor.ModelImports
