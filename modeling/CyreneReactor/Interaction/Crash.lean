import CyreneReactor.Interaction.RelyGuarantee

namespace Interaction

/-! Pools whose process may stop at any moment and be started again on the same state.

Nothing of a thread survives but what it wrote: the lock is free again, and a thread that
was not over goes no further.
-/

variable {system : System} {pool next : Pool system}

/-- What is left of a thread when its process stops; it comes to `lost`. -/
def Thread.cut (lost : system.Result) (thread : Thread system) : Thread system :=
  match thread.program with
  | .pure result => ⟨thread.command, 0, .pure result⟩
  | .call _ _ | .acquire _ | .release _ => ⟨thread.command, 0, .pure lost⟩

def Pool.crashed (lost : system.Result) (pool : Pool system) : Pool system :=
  ⟨pool.state, pool.threads.map (Thread.cut lost)⟩

theorem Thread.cut_spec (lost : system.Result) (thread : Thread system) :
    (thread.cut lost).command = thread.command ∧ (thread.cut lost).depth = 0 ∧
      ∃ result, (thread.cut lost).program = .pure result ∧
        (thread.program = .pure result ∨ result = lost) := by
  unfold cut
  split
  case h_1 result same => exact ⟨rfl, rfl, result, rfl, .inl same⟩
  all_goals exact ⟨rfl, rfl, lost, rfl, .inr rfl⟩

theorem Pool.crashed_quiescent (lost : system.Result) (pool : Pool system) :
    (pool.crashed lost).Quiescent := by
  intro thread member
  obtain ⟨old, _, rfl⟩ := List.mem_map.mp member
  exact (old.cut_spec lost).2.1

/-- A step of some thread, or a crash. -/
inductive CrashStep (lost : system.Result) : Pool system → Pool system → Prop where
  | step {pool next : Pool system} (step : Step pool next) : CrashStep lost pool next
  | crash (pool : Pool system) : CrashStep lost pool (pool.crashed lost)

/-- What some interleaving reaches, however often the process stops on the way. -/
def Survives (lost : system.Result) (start : system.State) : Pool system → Prop :=
  Relation.ReflTransGen (CrashStep lost) (Pool.initial start)

namespace Discipline

variable {discipline : Discipline system} {lost : system.Result}
  {post : Caller system.Command → system.Result → system.State → Prop}

/-- The lock invariant holds inside the sections too. -/
def Durable (discipline : Discipline system) : Prop :=
  ∀ {caller held state next}, discipline.lockInvariant state →
    discipline.guarantee caller held state next → discipline.lockInvariant next

theorem Sound.crashed (sound : discipline.Sound post pool)
    (invariant : discipline.lockInvariant pool.state) (ends : ∀ caller, post caller lost pool.state) :
    discipline.Sound post (pool.crashed lost) where
  exclusive := by
    intro left right first second found _ inside _
    have free := (pool.crashed_quiescent lost) first (List.mem_of_getElem? found)
    omega
  invariant := fun _ => invariant
  verified := by
    intro index thread found
    obtain ⟨old, here, rfl⟩ : ∃ old, pool.threads[index]? = some old ∧ old.cut lost = thread := by
      simpa [Pool.crashed] using found
    obtain ⟨command, free, result, program, was⟩ := old.cut_spec lost
    rw [free, program]
    have same : (old.cut lost).caller index = old.caller index := by
      simp only [Thread.caller, command]
    rw [same]
    rcases was with before | rfl
    · obtain ⟨since, relied, verified⟩ := sound.verified here
      rw [before] at verified
      refine ⟨since, ?_, rfl, verified.2⟩
      have held : old.held = (old.cut lost).held := by
        simp only [Thread.held, verified.1, free]
      rw [← held]
      exact relied
    · exact ⟨pool.state, .refl, rfl, ends _⟩
  fresh := by
    intro index bound
    apply sound.fresh
    simpa [Pool.crashed] using bound

/-- A crash leaves the state to the commands that come after it. -/
theorem Sound.of_survives (durable : discipline.Durable) {start : system.State}
    (bodies : ∀ index command state, discipline.fresh index state →
      discipline.Verified ⟨index, command⟩ 0 (system.body command) (post ⟨index, command⟩) state)
    (ends : ∀ caller state, post caller lost state) (invariant : discipline.lockInvariant start)
    (fresh : ∀ index, discipline.fresh index start) (survives : Survives lost start pool) :
    discipline.Sound post pool ∧ discipline.lockInvariant pool.state := by
  induction survives with
  | refl => exact ⟨discipline.initial_sound invariant fresh, invariant⟩
  | tail _ step ih =>
      obtain ⟨sound, holds⟩ := ih
      cases step with
      | crash => exact ⟨sound.crashed holds fun caller => ends caller _, holds⟩
      | step step =>
          obtain ⟨after, moved⟩ :=
            sound.step (fun _ => bodies _ _ _ (sound.fresh (Nat.le_refl _))) step
          refine ⟨after, ?_⟩
          rcases moved with same | ⟨caller, held, guaranteed⟩
          · exact same ▸ holds
          · exact durable holds guaranteed

/-- What every step keeps still holds where a verified program ends. -/
theorem Verified.stable {α : Type} {holds : system.State → Prop}
    {goal : α → system.State → Prop} {caller : Caller system.Command}
    (stable : ∀ {caller held state next}, holds state →
      discipline.guarantee caller held state next → holds next)
    {program : Program system.signature α} {depth : Nat} {state : system.State}
    (verified : discipline.Verified caller depth program goal state) (here : holds state) :
    discipline.Verified caller depth program (fun value after => goal value after ∧ holds after)
      state := by
  have relied : ∀ {held : Bool} {first last : system.State}, holds first →
      discipline.rely caller held first last → holds last := by
    intro held first last holds path
    induction path with
    | refl => exact holds
    | tail _ step ih =>
        obtain ⟨_, _, _, _, guaranteed⟩ := step
        exact stable ih guaranteed
  induction program generalizing depth state with
  | pure value => exact ⟨verified.1, verified.2, here⟩
  | call op next ih =>
      intro before path answer after does
      obtain ⟨guaranteed, rest⟩ := verified before path answer after does
      exact ⟨guaranteed, ih answer rest (stable (relied here path) guaranteed)⟩
  | acquire next ih =>
      cases depth with
      | zero =>
          intro before path invariant
          exact ih (verified before path invariant) (relied here path)
      | succ depth =>
          have inner : discipline.Verified caller (depth + 2) next goal state := verified
          exact ih inner here
  | release next ih =>
      match depth with
      | 0 => exact verified
      | 1 =>
          intro before path
          obtain ⟨invariant, rest⟩ := verified before path
          exact ⟨invariant, ih rest (relied here path)⟩
      | depth + 2 =>
          have outer : discipline.Verified caller (depth + 1) next goal state := verified
          exact ih outer here

/-- What the process knows of the commands started after some moment, when crashes may
come: every step since has kept what held then. -/
theorem Sound.since {holds : system.State → Prop} {last : Pool system}
    {goal : Caller system.Command → system.Result → system.State → Prop}
    (durable : discipline.Durable)
    (bodies : ∀ index command state, discipline.fresh index state →
      discipline.Verified ⟨index, command⟩ 0 (system.body command) (goal ⟨index, command⟩) state)
    (ends : ∀ caller state, goal caller lost state)
    (stable : ∀ {caller held state next}, holds state →
      discipline.guarantee caller held state next → holds next)
    (sound : discipline.Sound post pool) (invariant : discipline.lockInvariant pool.state)
    (here : holds pool.state) (run : Relation.ReflTransGen (CrashStep lost) pool last) :
    discipline.Sound (fun caller result state => pool.threads.length ≤ caller.index →
        goal caller result state ∧ holds state) last ∧
      discipline.lockInvariant last.state ∧ holds last.state := by
  induction run with
  | refl =>
      refine ⟨⟨sound.exclusive, sound.invariant, fun found => ?_, sound.fresh⟩, invariant, here⟩
      obtain ⟨since, relied, verified⟩ := sound.verified found
      have bound := (List.getElem?_eq_some_iff.mp found).1
      exact ⟨since, relied, verified.mono fun _ _ _ later => absurd bound (Nat.not_lt.mpr later)⟩
  | tail _ step ih =>
      obtain ⟨sound, invariant, here⟩ := ih
      cases step with
      | crash =>
          have cut := sound.crashed invariant fun caller _ => ⟨ends caller _, here⟩
          exact ⟨cut, invariant, here⟩
      | step step =>
          obtain ⟨after, moved⟩ := sound.step (fun command =>
            ((bodies _ command _ (sound.fresh (Nat.le_refl _))).stable stable here).mono
              fun _ _ both _ => both) step
          refine ⟨after, ?_⟩
          rcases moved with same | ⟨caller, held, guaranteed⟩
          · exact same ▸ ⟨invariant, here⟩
          · exact ⟨durable invariant guaranteed, stable here guaranteed⟩

/-- Whoever moves the state has something left to do. -/
theorem Sound.acted (sound : discipline.Sound post pool) (step : Step pool next) :
    next.state = pool.state ∨ ∃ (index : Nat) (thread : Thread system),
      pool.threads[index]? = some thread ∧ (∀ result, thread.program ≠ .pure result) ∧
        discipline.guarantee (thread.caller index) thread.held pool.state next.state := by
  cases step with
  | start | acquire | release => exact .inl rfl
  | @call index command depth op rest answer state here does =>
      obtain ⟨since, relied, verified⟩ := sound.verified here
      have guaranteed := (verified _ relied answer state does).1
      refine .inr ⟨index, _, here, ?_, guaranteed⟩
      intro result same
      cases same

end Discipline

/-- The first threads are over. -/
def Pool.Over (count : Nat) (pool : Pool system) : Prop :=
  ∀ index < count, ∃ (thread : Thread system) (result : system.Result),
    pool.threads[index]? = some thread ∧ thread.program = .pure result

theorem Pool.crashed_over (lost : system.Result) (pool : Pool system) :
    (pool.crashed lost).Over pool.threads.length := by
  intro index bound
  obtain ⟨_, _, result, program, _⟩ := (pool.threads[index]).cut_spec lost
  refine ⟨(pool.threads[index]).cut lost, result, ?_, program⟩
  simp [Pool.crashed, List.getElem?_eq_getElem bound]

theorem Pool.Over.step {lost : system.Result} {count : Nat} (idle : pool.Over count)
    (step : CrashStep lost pool next) : next.Over count := by
  intro index bound
  obtain ⟨thread, result, found, program⟩ := idle index bound
  have replaced : ∀ (moved : Nat) (old new : Thread system), pool.threads[moved]? = some old →
      (∀ result, old.program ≠ .pure result) →
      ∃ (thread : Thread system) (result : system.Result),
        (pool.threads.set moved new)[index]? = some thread ∧ thread.program = .pure result := by
    intro moved old new here busy
    have different : moved ≠ index := by
      rintro rfl
      rw [found, Option.some.injEq] at here
      exact busy result (here ▸ program)
    exact ⟨thread, result, by rw [List.getElem?_set_ne different, found], program⟩
  cases step with
  | crash =>
      refine ⟨thread.cut lost, result, ?_, ?_⟩
      · simp [Pool.crashed, found]
      · unfold Thread.cut
        rw [program]
  | step step =>
      cases step with
      | start =>
          have bound := (List.getElem?_eq_some_iff.mp found).1
          exact ⟨thread, result, by rw [List.getElem?_append_left bound, found], program⟩
      | call here | acquire here | release here =>
          exact replaced _ _ _ here (by simp)

/-- Nobody who is over moves the state. -/
theorem Pool.Over.mover {count : Nat} (idle : pool.Over count) {index : Nat}
    {thread : Thread system} (found : pool.threads[index]? = some thread)
    (busy : ∀ result, thread.program ≠ .pure result) : count ≤ index := by
  by_contra early
  obtain ⟨other, result, here, program⟩ := idle index (Nat.lt_of_not_le early)
  rw [found, Option.some.injEq] at here
  exact busy result (here ▸ program)

/-- What is recorded after a crash is recorded for threads that came after it. -/
theorem Discipline.Sound.newcomers {discipline : Discipline system} {lost : system.Result}
    {post : Caller system.Command → system.Result → system.State → Prop} {Event : Type}
    {journal : system.State → List Event} {author : Event → Nat} {last : Pool system}
    (records : ∀ {caller held state next}, discipline.guarantee caller held state next →
      journal next = journal state ∨
        ∃ event, journal next = journal state ++ [event] ∧ author event = caller.index)
    (sound : ∀ middle, Relation.ReflTransGen (CrashStep lost) (pool.crashed lost) middle →
      discipline.Sound post middle)
    (run : Relation.ReflTransGen (CrashStep lost) (pool.crashed lost) last) :
    last.Over pool.threads.length ∧ ∃ events, journal last.state = journal pool.state ++ events ∧
      ∀ event ∈ events, pool.threads.length ≤ author event := by
  induction run with
  | refl =>
      exact ⟨pool.crashed_over lost, [], (List.append_nil _).symm,
        fun _ member => absurd member List.not_mem_nil⟩
  | @tail middle last before step ih =>
      obtain ⟨idle, events, grown, young⟩ := ih
      refine ⟨idle.step step, ?_⟩
      have same : last.state = middle.state → ∃ events,
          journal last.state = journal pool.state ++ events ∧
            ∀ event ∈ events, pool.threads.length ≤ author event :=
        fun same => ⟨events, same ▸ grown, young⟩
      cases step with
      | crash => exact same rfl
      | step step =>
          rcases (sound middle before).acted step with
            still | ⟨index, thread, found, busy, guaranteed⟩
          · exact same still
          · rcases records guaranteed with still | ⟨event, appended, own⟩
            · exact ⟨events, still.trans grown, young⟩
            · refine ⟨events ++ [event], ?_, ?_⟩
              · rw [appended, grown, List.append_assoc]
              · intro other member
                rcases List.mem_append.mp member with earlier | last
                · exact young other earlier
                · rw [List.mem_singleton.mp last, own]
                  exact idle.mover found busy

end Interaction
