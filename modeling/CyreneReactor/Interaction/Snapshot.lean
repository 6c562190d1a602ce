import CyreneReactor.Interaction.Obeys
import Mathlib.Order.Basic

namespace Interaction

/-! Programs that read a world which moves on between their calls.

Two readings with one version in both tell what the world was like all the time between
them, where a version never goes back and nothing changes without it.
-/

section Traces

variable {signature : Signature} {α β ε : Type}

namespace Program

/-- The program makes these calls, is answered so, and ends with `result`. -/
def Traces : Program signature α → Past signature → α → Prop
  | .pure value, past, result => past = [] ∧ value = result
  | .call op next, past, result =>
      ∃ answer later, past = ⟨op, answer⟩ :: later ∧ (next answer).Traces later result
  | .acquire next, past, result | .release next, past, result => next.Traces past result

theorem traces_bind {first : Program signature α} {next : α → Program signature β}
    {past : Past signature} {result : β} :
    (first.bind next).Traces past result ↔ ∃ earlier middle later,
      past = earlier ++ later ∧ first.Traces earlier middle ∧ (next middle).Traces later result := by
  induction first generalizing past with
  | pure value =>
      constructor
      · exact fun traced => ⟨[], value, past, rfl, ⟨rfl, rfl⟩, traced⟩
      · rintro ⟨_, _, later, rfl, ⟨rfl, rfl⟩, traced⟩
        exact traced
  | call op rest ih =>
      constructor
      · intro traced
        obtain ⟨answer, after, rfl, traced⟩ := traced
        obtain ⟨earlier, middle, later, rfl, before, ends⟩ := (ih answer).mp traced
        exact ⟨⟨op, answer⟩ :: earlier, middle, later, rfl, ⟨answer, earlier, rfl, before⟩, ends⟩
      · rintro ⟨_, middle, later, rfl, ⟨answer, earlier, rfl, before⟩, ends⟩
        have traced := (ih answer).mpr ⟨earlier, middle, later, rfl, before, ends⟩
        exact ⟨answer, earlier ++ later, rfl, traced⟩
  | acquire rest ih | release rest ih => exact ih

/-- What the rule allows of a program, its traces keep to. -/
theorem Obeys.allowed {rule : Past signature → signature.Op → Prop} {program : Program signature α}
    {post : α → Past signature → Prop} {before past earlier later : Past signature} {result : α}
    (obeys : program.Obeys rule (fun _ _ => True) post before) (traced : program.Traces past result)
    {event : Answered signature} (here : past = earlier ++ event :: later) :
    rule (before ++ earlier) event.op := by
  induction program generalizing before past earlier with
  | pure value =>
      obtain ⟨rfl, _⟩ := traced
      cases earlier <;> cases here
  | call op next ih =>
      obtain ⟨answer, rest, rfl, traced⟩ := traced
      cases earlier with
      | nil =>
          cases here
          simpa using obeys.1
      | cons first earlier =>
          cases here
          have allowed := ih answer (obeys.2 answer trivial) traced rfl
          simpa using allowed
  | acquire next ih | release next ih => exact ih obeys traced here

end Program

namespace Fallible

variable {next : α → Fallible signature ε β} {past : Past signature} {result : β}

theorem traces_bind_ok {first : Fallible signature ε α} :
    (first >>= next).run.Traces past (.ok result) ↔ ∃ earlier middle later,
      past = earlier ++ later ∧ first.run.Traces earlier (.ok middle) ∧
        (next middle).run.Traces later (.ok result) := by
  rw [ExceptT.run_bind, Program.bind_def, Program.traces_bind]
  constructor
  · rintro ⟨earlier, outcome, later, split, before, after⟩
    cases outcome with
    | ok middle => exact ⟨earlier, middle, later, split, before, after⟩
    | error raised => cases after.2
  · rintro ⟨earlier, middle, later, split, before, after⟩
    exact ⟨earlier, .ok middle, later, split, before, after⟩

theorem traces_pure {value : β} :
    (pure value : Fallible signature ε β).run.Traces past (.ok result) ↔
      past = [] ∧ value = result := by
  constructor
  · rintro ⟨rfl, same⟩
    cases same
    exact ⟨rfl, rfl⟩
  · rintro ⟨rfl, rfl⟩
    exact ⟨rfl, rfl⟩

/-- A check that makes no call. -/
theorem traces_check {outcome : Except ε α} :
    (ofExcept outcome >>= next).run.Traces past (.ok result) ↔
      ∃ value, outcome = .ok value ∧ (next value).run.Traces past (.ok result) := by
  rw [traces_bind_ok]
  constructor
  · rintro ⟨_, value, _, rfl, ⟨rfl, same⟩, traced⟩
    exact ⟨value, same, traced⟩
  · rintro ⟨value, same, traced⟩
    exact ⟨[], value, past, rfl, ⟨rfl, same⟩, traced⟩

/-- A call whose answer is checked before the program goes on. -/
theorem traces_inquiry {op : signature.Op} {check : signature.Answer op → Except ε α} :
    ((perform op >>= fun answer => ofExcept (check answer)) >>= next).run.Traces
        past (.ok result) ↔
      ∃ answer value later, past = ⟨op, answer⟩ :: later ∧ check answer = .ok value ∧
        (next value).run.Traces later (.ok result) := by
  rw [traces_bind_ok]
  constructor
  · rintro ⟨_, value, later, rfl, ⟨answer, _, rfl, rfl, same⟩, traced⟩
    exact ⟨answer, value, later, rfl, same, traced⟩
  · rintro ⟨answer, value, later, rfl, same, traced⟩
    exact ⟨[⟨op, answer⟩], value, later, rfl, ⟨answer, [], rfl, rfl, same⟩, traced⟩

theorem obeys_inquiry {rule : Past signature → signature.Op → Prop}
    {admits : (op : signature.Op) → signature.Answer op → Prop} {op : signature.Op}
    {check : signature.Answer op → Except ε α} (allowed : rule past op)
    (obeys : ∀ answer value, check answer = .ok value →
      (next value).run.Obeys rule admits (fun _ _ => True) (past ++ [⟨op, answer⟩])) :
    ((perform op >>= fun answer => ofExcept (check answer)) >>= next).run.Obeys rule admits
      (fun _ _ => True) past := by
  apply obeys_bind
  apply obeys_call allowed
  intro answer _
  cases checked : check answer with
  | ok value => exact obeys answer value checked
  | error raised => trivial

end Fallible

end Traces

/-- How a world may move on, and what it may answer where it is. -/
structure World (signature : Signature) (State : Type) where
  moves : State → State → Prop
  answers : State → (op : signature.Op) → signature.Answer op → Prop

section Worlds

variable {signature : Signature} {State α : Type} {world : World signature State}
  {program : Program signature α} {start last : State} {result : α}

/-- One call, and where the world was when it was answered. -/
structure Moment (signature : Signature) (State : Type) where
  state : State
  event : Answered signature

namespace World

abbrev Later (world : World signature State) : State → State → Prop :=
  Relation.ReflTransGen world.moves

/-- Moments in the order of time from `start` to `last`, each answered where the world was. -/
def Witnesses (world : World signature State) : State → List (Moment signature State) → State → Prop
  | start, [], last => world.Later start last
  | start, moment :: rest, last =>
      world.Later start moment.state ∧
        world.answers moment.state moment.event.op moment.event.answer ∧
        world.Witnesses moment.state rest last

/-- A run of the program while the world moves. -/
structure Run (world : World signature State) (program : Program signature α) (start : State)
    (moments : List (Moment signature State)) (result : α) (last : State) : Prop where
  witnessed : world.Witnesses start moments last
  traced : program.Traces (moments.map Moment.event) result

theorem Witnesses.later {moments : List (Moment signature State)}
    (witnessed : world.Witnesses start moments last) : world.Later start last := by
  induction moments generalizing start with
  | nil => exact witnessed
  | cons moment rest ih => exact witnessed.1.trans (ih witnessed.2.2)

end World

end Worlds

section Versions

variable {State Version Value : Type} {moves : State → State → Prop}
  {version : State → Version} {value : State → Value} {first middle last : State}

/-- The version never goes back. -/
def Ascends [LE Version] (moves : State → State → Prop) (version : State → Version) : Prop :=
  ∀ before after, moves before after → version before ≤ version after

/-- The version never goes back, and the value changes only together with it. -/
structure Versioned [LE Version] (moves : State → State → Prop) (version : State → Version)
    (value : State → Value) : Prop where
  ascends : Ascends moves version
  tells : ∀ {before after : State}, moves before after → version before = version after →
    value before = value after

variable [PartialOrder Version]

theorem Ascends.le (ascends : Ascends moves version)
    (run : Relation.ReflTransGen moves first last) : version first ≤ version last := by
  induction run with
  | refl => exact le_refl _
  | tail _ step ih => exact ih.trans (ascends _ _ step)

/-- Between two readings of one version there is no other. -/
theorem Ascends.pinned (ascends : Ascends moves version)
    (before : Relation.ReflTransGen moves first middle)
    (after : Relation.ReflTransGen moves middle last) (equal : version first = version last) :
    version middle = version first :=
  le_antisymm (equal ▸ ascends.le after) (ascends.le before)

theorem Versioned.same (versioned : Versioned moves version value)
    (run : Relation.ReflTransGen moves first last) (equal : version first = version last) :
    value first = value last := by
  induction run with
  | refl => rfl
  | @tail middle last before step ih =>
      have reached := versioned.ascends.pinned before (.single step) equal
      exact (ih reached.symm).trans (versioned.tells step (reached.trans equal))

/-- Between two readings of one version there is only one value. -/
theorem Versioned.between (versioned : Versioned moves version value)
    (before : Relation.ReflTransGen moves first middle)
    (after : Relation.ReflTransGen moves middle last) (equal : version first = version last) :
    value middle = value first :=
  (versioned.same before (versioned.ascends.pinned before after equal).symm).symm

end Versions

end Interaction
