import Mathlib.Tactic.ByContra
import CyreneReactor.Interaction.Pool

namespace Interaction

/-! A rely-guarantee logic for pools.

A discipline says what a step of a thread may do to the state (`guarantee`)
and what holds whenever nobody owns the lock (`lockInvariant`).  What a thread
may rely on is not chosen: it is any number of steps the discipline allows to
the others.  A thread that owns the lock only meets steps made without it.
-/

variable {system : System}

/-- `fresh index` is what a thread may assume about the state when it is
started at that index; only its own steps can end it. -/
structure Discipline (system : System) where
  guarantee : Caller system.Command → Bool → system.State → system.State → Prop
  lockInvariant : system.State → Prop
  fresh : Nat → system.State → Prop
  lockInvariant_of_unheld : ∀ {caller state next}, lockInvariant state →
    guarantee caller false state next → lockInvariant next
  fresh_of_guarantee : ∀ {index caller held state next}, fresh index state →
    guarantee caller held state next → caller.index ≠ index → fresh index next

namespace Discipline

variable {α : Type} (discipline : Discipline system)

def interferes (caller : Caller system.Command) (held : Bool)
    (state next : system.State) : Prop :=
  ∃ (other : Caller system.Command) (otherHeld : Bool), other.index ≠ caller.index ∧
    (held = true → otherHeld = false) ∧ discipline.guarantee other otherHeld state next

def rely (caller : Caller system.Command) (held : Bool) :
    system.State → system.State → Prop :=
  Relation.ReflTransGen (discipline.interferes caller held)

/-- What a thread may assume at its start, the others cannot end. -/
theorem fresh_of_rely {caller : Caller system.Command} {held : Bool}
    {state next : system.State} (fresh : discipline.fresh caller.index state)
    (relied : discipline.rely caller held state next) : discipline.fresh caller.index next := by
  induction relied with
  | refl => exact fresh
  | tail _ step ih =>
      obtain ⟨other, otherHeld, different, _, guaranteed⟩ := step
      exact discipline.fresh_of_guarantee ih guaranteed different

/-- The program keeps the discipline from `state` on, whatever the others do,
and ends without the lock in a state that satisfies `post`. -/
def Verified (caller : Caller system.Command) :
    Nat → Program system.signature α → (α → system.State → Prop) → system.State → Prop
  | depth, .pure value, post, state => depth = 0 ∧ post value state
  | depth, .call op next, post, state =>
      ∀ before, discipline.rely caller (decide (0 < depth)) state before →
        ∀ answer after, system.exec caller (decide (0 < depth)) op before answer after →
          discipline.guarantee caller (decide (0 < depth)) before after ∧
          Verified caller depth (next answer) post after
  | 0, .acquire next, post, state =>
      ∀ before, discipline.rely caller false state before → discipline.lockInvariant before →
        Verified caller 1 next post before
  | depth + 1, .acquire next, post, state => Verified caller (depth + 2) next post state
  | 0, .release _, _, _ => False
  | 1, .release next, post, state =>
      ∀ before, discipline.rely caller true state before →
        discipline.lockInvariant before ∧ Verified caller 0 next post before
  | depth + 2, .release next, post, state =>
      Verified caller (depth + 1) next post state

/-- What the logic knows about a pool between two steps. -/
structure Sound (post : Caller system.Command → system.Result → system.State → Prop)
    (pool : Pool system) : Prop where
  exclusive : ∀ {left right : Nat} {first second : Thread system},
    pool.threads[left]? = some first → pool.threads[right]? = some second →
    0 < first.depth → 0 < second.depth → left = right
  invariant : pool.Quiescent → discipline.lockInvariant pool.state
  verified : ∀ {index : Nat} {thread : Thread system}, pool.threads[index]? = some thread →
    ∃ since, discipline.rely (thread.caller index) thread.held since pool.state ∧
      discipline.Verified (thread.caller index) thread.depth thread.program
        (post (thread.caller index)) since
  fresh : ∀ {index : Nat}, pool.threads.length ≤ index → discipline.fresh index pool.state

theorem initial_sound {post : Caller system.Command → system.Result → system.State → Prop}
    {state : system.State} (invariant : discipline.lockInvariant state)
    (fresh : ∀ index, discipline.fresh index state) :
    discipline.Sound post (Pool.initial state) where
  exclusive := by intro left right first second found; simp [Pool.initial] at found
  invariant := fun _ => invariant
  verified := by intro index thread found; simp [Pool.initial] at found
  fresh := fun _ => fresh _

private theorem lookup_set {α : Type} {values : List α} {index other : Nat} {value found : α}
    (lookup : (values.set index value)[other]? = some found) :
    (other = index ∧ found = value) ∨ (other ≠ index ∧ values[other]? = some found) := by
  by_cases equal : index = other
  · subst other
    rw [List.getElem?_set] at lookup
    simp only [if_true] at lookup
    split at lookup
    · exact .inl ⟨rfl, (Option.some.inj lookup).symm⟩
    · cases lookup
  · rw [List.getElem?_set_ne equal] at lookup
    exact .inr ⟨fun same => equal same.symm, lookup⟩

variable {discipline}
variable {post : Caller system.Command → system.Result → system.State → Prop}
variable {pool : Pool system}

/-- Threads other than the one that moved keep what they rely on. -/
private theorem Sound.others (sound : discipline.Sound post pool)
    {index other : Nat} {moved thread : Thread system} {state : system.State} {held : Bool}
    (here : pool.threads[index]? = some moved) (heldEq : held = moved.held)
    (guaranteed : discipline.guarantee (moved.caller index) held pool.state state)
    (different : other ≠ index) (found : pool.threads[other]? = some thread) :
    ∃ since, discipline.rely (thread.caller other) thread.held since state ∧
      discipline.Verified (thread.caller other) thread.depth thread.program
        (post (thread.caller other)) since := by
  obtain ⟨since, relied, verified⟩ := sound.verified found
  refine ⟨since, relied.tail ⟨moved.caller index, held, fun same => different same.symm, ?_,
    guaranteed⟩, verified⟩
  intro otherHeld
  by_contra stillHeld
  have movedHeld : moved.held = true := by
    rw [← heldEq]
    simpa using stillHeld
  exact different (sound.exclusive found here (by simpa [Thread.held] using otherHeld)
    (by simpa [Thread.held] using movedHeld))

/-- Replacing one thread without touching the state, when the new thread owns
the lock only if no other thread does. -/
private theorem Sound.replace (sound : discipline.Sound post pool)
    {index : Nat} {moved after : Thread system}
    (here : pool.threads[index]? = some moved)
    (free : 0 < after.depth → ∀ other (thread : Thread system),
      pool.threads[other]? = some thread → 0 < thread.depth → other = index)
    (invariant : after.depth = 0 → discipline.lockInvariant pool.state)
    (verified : ∃ since, discipline.rely (after.caller index) after.held since pool.state ∧
      discipline.Verified (after.caller index) after.depth after.program
        (post (after.caller index)) since) :
    discipline.Sound post ⟨pool.state, pool.threads.set index after⟩ where
  exclusive := by
    intro left right first second foundLeft foundRight heldLeft heldRight
    rcases lookup_set foundLeft with ⟨rfl, rfl⟩ | ⟨_, foundLeft⟩
    · rcases lookup_set foundRight with ⟨rfl, _⟩ | ⟨_, foundRight⟩
      · rfl
      · exact (free heldLeft right second foundRight heldRight).symm
    · rcases lookup_set foundRight with ⟨rfl, rfl⟩ | ⟨_, foundRight⟩
      · exact free heldRight _ _ (by assumption) heldLeft
      · exact sound.exclusive foundLeft foundRight heldLeft heldRight
  invariant := by
    intro quiescent
    have bound := (List.getElem?_eq_some_iff.mp here).1
    exact invariant (quiescent after (List.mem_of_getElem? (List.getElem?_set_self bound)))
  verified := by
    intro other thread found
    rcases lookup_set found with ⟨rfl, rfl⟩ | ⟨_, found⟩
    · exact verified
    · exact sound.verified found
  fresh := by
    intro other bound
    exact sound.fresh (by simpa using bound)

private theorem Sound.quiescent_of_free {index : Nat} {moved : Thread system}
    (here : pool.threads[index]? = some moved) (depth : moved.depth = 0)
    (free : ∀ other (thread : Thread system), pool.threads[other]? = some thread →
      0 < thread.depth → other = index) : pool.Quiescent := by
  intro thread member
  obtain ⟨other, found⟩ := List.getElem?_of_mem member
  by_contra held
  have same := free other thread found (Nat.pos_of_ne_zero held)
  subst other
  rw [here, Option.some.injEq] at found
  subst thread
  exact held depth

/-- The logic is sound for one step: every thread stays verified, and the step
did nothing the discipline forbids. -/
theorem Sound.step {next : Pool system} (sound : discipline.Sound post pool)
    (bodies : ∀ command, discipline.Verified ⟨pool.threads.length, command⟩ 0
      (system.body command) (post ⟨pool.threads.length, command⟩) pool.state)
    (step : Step pool next) :
    discipline.Sound post next ∧ (next.state = pool.state ∨
      ∃ caller held, discipline.guarantee caller held pool.state next.state) := by
  cases step with
  | start command =>
      refine ⟨?_, .inl rfl⟩
      have found_or : ∀ {index : Nat} {thread : Thread system},
          (pool.threads ++ [Thread.start command])[index]? = some thread →
          pool.threads[index]? = some thread ∨
            (index = pool.threads.length ∧ thread = Thread.start command) := by
        intro index thread found
        rcases Nat.lt_or_ge index pool.threads.length with bound | bound
        · exact .inl (by rwa [List.getElem?_append_left bound] at found)
        · rw [List.getElem?_append_right bound, List.getElem?_singleton] at found
          split at found
          · exact .inr ⟨by omega, (Option.some.inj found).symm⟩
          · cases found
      constructor
      · intro left right first second foundLeft foundRight heldLeft heldRight
        rcases found_or foundLeft with foundLeft | ⟨_, rfl⟩
        · rcases found_or foundRight with foundRight | ⟨_, rfl⟩
          · exact sound.exclusive foundLeft foundRight heldLeft heldRight
          · simp [Thread.start] at heldRight
        · simp [Thread.start] at heldLeft
      · intro quiescent
        exact sound.invariant fun thread member =>
          quiescent thread (List.mem_append_left _ member)
      · intro index thread found
        rcases found_or found with found | ⟨rfl, rfl⟩
        · exact sound.verified found
        · exact ⟨pool.state, .refl, bodies _⟩
      · intro index bound
        exact sound.fresh (by simp only [List.length_append] at bound; omega)
  | @call index command depth op continuation answer state here does =>
      obtain ⟨since, relied, verified⟩ := sound.verified here
      obtain ⟨guaranteed, rest⟩ := verified _ relied _ _ does
      refine ⟨?_, .inr ⟨_, _, guaranteed⟩⟩
      have bound := (List.getElem?_eq_some_iff.mp here).1
      constructor
      · intro left right first second foundLeft foundRight heldLeft heldRight
        have heldHere : ∀ {at' : Nat} {thread : Thread system}, 0 < thread.depth →
            (pool.threads.set index ⟨command, depth, continuation answer⟩)[at']? = some thread →
            ∃ before : Thread system, pool.threads[at']? = some before ∧ 0 < before.depth := by
          intro at' thread held found
          rcases lookup_set found with ⟨rfl, rfl⟩ | ⟨_, found⟩
          · exact ⟨_, here, held⟩
          · exact ⟨_, found, held⟩
        obtain ⟨_, beforeLeft, leftHeld⟩ := heldHere heldLeft foundLeft
        obtain ⟨_, beforeRight, rightHeld⟩ := heldHere heldRight foundRight
        exact sound.exclusive beforeLeft beforeRight leftHeld rightHeld
      · intro quiescent
        have depthZero : depth = 0 :=
          quiescent ⟨command, depth, continuation answer⟩
            (List.mem_of_getElem? (List.getElem?_set_self bound))
        subst depth
        refine discipline.lockInvariant_of_unheld (sound.invariant ?_) guaranteed
        refine Sound.quiescent_of_free here rfl fun other thread found held => ?_
        by_contra different
        have unheld := quiescent thread (List.mem_of_getElem?
          (by rw [List.getElem?_set_ne (fun same => different same.symm), found]))
        omega
      · intro other thread found
        rcases lookup_set found with ⟨rfl, rfl⟩ | ⟨different, found⟩
        · exact ⟨state, .refl, rest⟩
        · exact sound.others here rfl guaranteed different found
      · intro other notBelow
        have notBelow' : pool.threads.length ≤ other := by simpa using notBelow
        exact discipline.fresh_of_guarantee (sound.fresh notBelow') guaranteed (by
          change index ≠ other
          omega)
  | @acquire index command depth continuation here free =>
      refine ⟨?_, .inl rfl⟩
      obtain ⟨since, relied, verified⟩ := sound.verified here
      refine sound.replace here (fun _ => free) (fun zero => by simp at zero) ?_
      cases depth with
      | zero =>
          have invariant := sound.invariant (Sound.quiescent_of_free here rfl free)
          exact ⟨pool.state, .refl, verified _ relied invariant⟩
      | succ depth => exact ⟨since, relied, verified⟩
  | @release index command depth continuation here =>
      refine ⟨?_, .inl rfl⟩
      obtain ⟨since, relied, verified⟩ := sound.verified here
      have free : ∀ other (thread : Thread system), pool.threads[other]? = some thread →
          0 < thread.depth → other = index :=
        fun other thread found held => sound.exclusive found here held (Nat.succ_pos depth)
      cases depth with
      | zero =>
          obtain ⟨invariant, rest⟩ := verified _ relied
          exact sound.replace here (fun _ => free) (fun _ => invariant)
            ⟨pool.state, .refl, rest⟩
      | succ depth =>
          exact sound.replace here (fun _ => free) (fun zero => by simp at zero)
            ⟨since, relied, verified⟩

section Runs

variable {start : system.State}

/-- A pool reached from a state that satisfies the lock invariant is sound. -/
theorem Sound.of_reachable (bodies : ∀ index command state, discipline.fresh index state →
      discipline.Verified ⟨index, command⟩ 0 (system.body command) (post ⟨index, command⟩) state)
    (invariant : discipline.lockInvariant start) (fresh : ∀ index, discipline.fresh index start)
    (reached : Reachable start pool) : discipline.Sound post pool := by
  induction reached with
  | refl => exact discipline.initial_sound invariant fresh
  | tail _ step ih =>
      exact (ih.step (fun _ => bodies _ _ _ (ih.fresh (Nat.le_refl _))) step).1

end Runs

/-- Weaker goals are easier to verify. -/
theorem Verified.mono {caller : Caller system.Command} {weak strong : α → system.State → Prop}
    (implies : ∀ value state, strong value state → weak value state)
    {program : Program system.signature α} {depth : Nat} {state : system.State}
    (verified : discipline.Verified caller depth program strong state) :
    discipline.Verified caller depth program weak state := by
  induction program generalizing depth state with
  | pure value => exact ⟨verified.1, implies _ _ verified.2⟩
  | call op next ih =>
      intro before relied answer after does
      obtain ⟨guaranteed, rest⟩ := verified before relied answer after does
      exact ⟨guaranteed, ih answer rest⟩
  | acquire next ih =>
      cases depth with
      | zero => exact fun before relied invariant => ih (verified before relied invariant)
      | succ depth =>
          exact ih (show discipline.Verified caller (depth + 2) next strong state from verified)
  | release next ih =>
      match depth with
      | 0 => exact verified
      | 1 =>
          intro before relied
          obtain ⟨invariant, rest⟩ := verified before relied
          exact ⟨invariant, ih rest⟩
      | depth + 2 =>
          exact ih (show discipline.Verified caller (depth + 1) next strong state from verified)

/-- Programs are verified one after the other. -/
theorem Verified.bind {caller : Caller system.Command} {β : Type}
    {goal : β → system.State → Prop} {program : Program system.signature α}
    {next : α → Program system.signature β} {depth : Nat} {state : system.State}
    (verified : discipline.Verified caller depth program
      (fun value after => discipline.Verified caller 0 (next value) goal after) state) :
    discipline.Verified caller depth (program.bind next) goal state := by
  induction program generalizing depth state with
  | pure value =>
      obtain ⟨rfl, rest⟩ := verified
      exact rest
  | call op continuation ih =>
      intro before relied answer after does
      obtain ⟨guaranteed, rest⟩ := verified before relied answer after does
      exact ⟨guaranteed, ih answer rest⟩
  | acquire continuation ih =>
      cases depth with
      | zero => exact fun before relied invariant => ih (verified before relied invariant)
      | succ depth =>
          have inner : discipline.Verified caller (depth + 2) continuation
            (fun value after => discipline.Verified caller 0 (next value) goal after) state :=
            verified
          exact ih inner
  | release continuation ih =>
      match depth with
      | 0 => exact verified.elim
      | 1 =>
          intro before relied
          obtain ⟨invariant, rest⟩ := verified before relied
          exact ⟨invariant, ih rest⟩
      | depth + 2 =>
          have outer : discipline.Verified caller (depth + 1) continuation
            (fun value after => discipline.Verified caller 0 (next value) goal after) state :=
            verified
          exact ih outer

/-- A verified program may start later: what the others do in between is
part of what it relies on. -/
theorem Verified.later {caller : Caller system.Command} {goal : α → system.State → Prop}
    (stable : ∀ value state next, discipline.rely caller false state next →
      goal value state → goal value next)
    {program : Program system.signature α} {depth : Nat} {state next : system.State}
    (verified : discipline.Verified caller depth program goal state)
    (relied : discipline.rely caller (decide (0 < depth)) state next) :
    discipline.Verified caller depth program goal next := by
  induction program generalizing depth state next with
  | pure value =>
      obtain ⟨rfl, holds⟩ := verified
      exact ⟨rfl, stable _ _ _ relied holds⟩
  | call op rest ih =>
      exact fun before later => verified before (relied.trans later)
  | acquire rest ih =>
      cases depth with
      | zero => exact fun before later => verified before (relied.trans later)
      | succ depth =>
          have inner : discipline.Verified caller (depth + 2) rest goal state := verified
          exact ih inner (by simpa using relied)
  | release rest ih =>
      match depth with
      | 0 => exact verified
      | 1 => exact fun before later => verified before (relied.trans later)
      | depth + 2 =>
          have outer : discipline.Verified caller (depth + 1) rest goal state := verified
          exact ih outer (by simpa using relied)

/-- Any steps the discipline allows to any threads. -/
def allows (discipline : Discipline system) : system.State → system.State → Prop :=
  Relation.ReflTransGen fun state next => ∃ caller held, discipline.guarantee caller held state next

/-- A command that ends, and was not begun in `pool`, was verified from a later state. -/
theorem Sound.finished {last : Pool system}
    {goal : Caller system.Command → system.State → system.Result → system.State → Prop}
    (bodies : ∀ index command state, discipline.fresh index state →
      discipline.Verified ⟨index, command⟩ 0 (system.body command)
        (goal ⟨index, command⟩ state) state)
    (sound : discipline.Sound post pool) (run : Relation.ReflTransGen Step pool last)
    {index depth : Nat} {command : system.Command} {result : system.Result}
    (fresh : discipline.fresh index pool.state)
    (unbegun : ∀ thread, pool.threads[index]? = some thread → ∃ asked, thread = Thread.start asked)
    (found : last.threads[index]? = some ⟨command, depth, .pure result⟩) :
    ∃ began since, discipline.allows pool.state began ∧
      discipline.rely ⟨index, command⟩ (decide (0 < depth)) since last.state ∧
        goal ⟨index, command⟩ began result since := by
  let reaches : Caller system.Command → system.Result → system.State → Prop :=
    fun caller result state => caller.index = index ∨ pool.threads.length ≤ caller.index →
      ∃ began, discipline.allows pool.state began ∧ goal caller began result state
  have still : discipline.Sound reaches last ∧ discipline.allows pool.state last.state := by
    clear found
    induction run with
    | refl =>
        refine ⟨⟨sound.exclusive, sound.invariant, fun {place thread} found => ?_, sound.fresh⟩,
          .refl⟩
        by_cases own : place = index
        · subst own
          obtain ⟨asked, rfl⟩ := unbegun thread found
          exact ⟨pool.state, .refl, (bodies place asked _ fresh).mono
            fun _ _ holds _ => ⟨_, .refl, holds⟩⟩
        · obtain ⟨since, relied, verified⟩ := sound.verified found
          have bound := (List.getElem?_eq_some_iff.mp found).1
          exact ⟨since, relied, verified.mono fun _ _ _ either => either.elim
            (fun same => absurd same own) (fun later => absurd bound (Nat.not_lt.mpr later))⟩
    | tail _ step ih =>
        obtain ⟨middle, path⟩ := ih
        obtain ⟨sound, moved⟩ := middle.step (fun command =>
          (bodies _ command _ (middle.fresh (Nat.le_refl _))).mono
            fun _ _ holds _ => ⟨_, path, holds⟩) step
        refine ⟨sound, ?_⟩
        rcases moved with same | guaranteed
        · rw [same]
          exact path
        · exact path.tail guaranteed
  obtain ⟨since, relied, _, reached⟩ := still.1.verified found
  obtain ⟨began, path, holds⟩ := reached (.inl rfl)
  exact ⟨began, since, path, relied, holds⟩

end Discipline

end Interaction
