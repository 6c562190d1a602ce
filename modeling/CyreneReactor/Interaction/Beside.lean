import CyreneReactor.Interaction.Pool

namespace Interaction

/-! Two systems side by side that share one lock.

Each has a state and threads of its own.  What their calls leave behind is kept in one
trail, in the order of the calls.
-/

/-- What a state has kept of the calls, which only grows. -/
structure Told (system : System) (Mark : Type) where
  read : system.State → List Mark
  grows : ∀ {caller held op state answer next}, system.exec caller held op state answer next →
    ∃ made, read next = read state ++ made

namespace Told

variable {system : System} {Mark : Type} (told : Told system Mark)

/-- What was left between two states. -/
def since (before after : system.State) : List Mark :=
  (told.read after).drop (told.read before).length

theorem read_step {pool next : Pool system} (step : Step pool next) :
    told.read next.state = told.read pool.state ++ told.since pool.state next.state := by
  have grown : ∃ made, told.read next.state = told.read pool.state ++ made := by
    cases step with
    | call here does => exact told.grows does
    | start | acquire | release => exact ⟨[], (List.append_nil _).symm⟩
  obtain ⟨made, grown⟩ := grown
  rw [since, grown, List.drop_left]

theorem read_path {pool next : Pool system} (path : Relation.ReflTransGen Step pool next) :
    told.read next.state = told.read pool.state ++ told.since pool.state next.state := by
  have grown : ∃ made, told.read next.state = told.read pool.state ++ made := by
    induction path with
    | refl => exact ⟨[], (List.append_nil _).symm⟩
    | tail _ step ih =>
        obtain ⟨made, grown⟩ := ih
        exact ⟨made ++ _, by rw [told.read_step step, grown, List.append_assoc]⟩
  obtain ⟨made, grown⟩ := grown
  rw [since, grown, List.drop_left]

theorem since_step {pool middle next : Pool system} (path : Relation.ReflTransGen Step pool middle)
    (step : Step middle next) :
    told.since pool.state next.state =
      told.since pool.state middle.state ++ told.since middle.state next.state := by
  have grown := told.read_step step
  rw [told.read_path path, List.append_assoc] at grown
  rw [since, grown, List.drop_left]

/-- A step leaves nothing of a kind that the state after it has kept nothing of. -/
theorem since_foreign {pool next : Pool system} {chosen : Mark → Bool} (step : Step pool next)
    (foreign : ∀ mark ∈ told.read next.state, chosen mark = false) :
    (told.since pool.state next.state).filter chosen = [] ∧
      ∀ mark ∈ told.read pool.state, chosen mark = false := by
  rw [told.read_step step] at foreign
  constructor
  · apply List.filter_eq_nil_iff.mpr
    intro mark member
    simp [foreign mark (List.mem_append_right _ member)]
  · intro mark member
    exact foreign mark (List.mem_append_left _ member)

end Told

structure Beside (first second : System) (Mark : Type) where
  left : Pool first
  right : Pool second
  trail : List Mark

namespace Beside

variable {first second : System} {Mark : Type}

def initial (start : first.State) (start' : second.State) : Beside first second Mark :=
  ⟨Pool.initial start, Pool.initial start', []⟩

section Steps

variable (told : Told first Mark) (told' : Told second Mark)

/-- One step of either, after which only one of them may hold the lock. -/
inductive Step : Beside first second Mark → Beside first second Mark → Prop where
  | left {pools : Beside first second Mark} {next : Pool first}
      (step : Interaction.Step pools.left next) (exclusive : next.Quiescent ∨ pools.right.Quiescent) :
      Step pools ⟨next, pools.right, pools.trail ++ told.since pools.left.state next.state⟩
  | right {pools : Beside first second Mark} {next : Pool second}
      (step : Interaction.Step pools.right next) (exclusive : pools.left.Quiescent ∨ next.Quiescent) :
      Step pools ⟨pools.left, next, pools.trail ++ told'.since pools.right.state next.state⟩

/-- Everything some interleaving of both reaches. -/
def Reachable (start : first.State) (start' : second.State) : Beside first second Mark → Prop :=
  Relation.ReflTransGen (Step told told') (initial start start')

end Steps

variable {told : Told first Mark} {told' : Told second Mark}
variable {start : first.State} {start' : second.State} {pools : Beside first second Mark}

theorem Reachable.left_reached (reached : Reachable told told' start start' pools) :
    Interaction.Reachable start pools.left := by
  induction reached with
  | refl => exact .refl
  | tail _ step ih =>
      cases step with
      | left step => exact ih.step step
      | right => exact ih

theorem Reachable.right_reached (reached : Reachable told told' start start' pools) :
    Interaction.Reachable start' pools.right := by
  induction reached with
  | refl => exact .refl
  | tail _ step ih =>
      cases step with
      | left => exact ih
      | right step => exact ih.step step

/-- The marks of a kind are those of the left system, when the right one leaves none. -/
theorem Reachable.filter_left {chosen : Mark → Bool}
    (reached : Reachable told told' start start' pools) (unmarked : told.read start = [])
    (foreign : ∀ mark ∈ told'.read pools.right.state, chosen mark = false) :
    pools.trail.filter chosen = (told.read pools.left.state).filter chosen := by
  induction reached with
  | refl =>
      change [] = (told.read start).filter chosen
      rw [unmarked]
      rfl
  | tail _ step ih =>
      cases step with
      | left step => rw [told.read_step step, List.filter_append, List.filter_append, ih foreign]
      | right step =>
          obtain ⟨none, before⟩ := told'.since_foreign step foreign
          rw [List.filter_append, none, List.append_nil]
          exact ih before

theorem Reachable.filter_right {chosen : Mark → Bool}
    (reached : Reachable told told' start start' pools) (unmarked : told'.read start' = [])
    (foreign : ∀ mark ∈ told.read pools.left.state, chosen mark = false) :
    pools.trail.filter chosen = (told'.read pools.right.state).filter chosen := by
  induction reached with
  | refl =>
      change [] = (told'.read start').filter chosen
      rw [unmarked]
      rfl
  | tail _ step ih =>
      cases step with
      | left step =>
          obtain ⟨none, before⟩ := told.since_foreign step foreign
          rw [List.filter_append, none, List.append_nil]
          exact ih before
      | right step => rw [told'.read_step step, List.filter_append, List.filter_append, ih foreign]

/-- While no thread of the right system holds the lock, the left one runs as if alone. -/
theorem lefts {last : Pool first} (path : Relation.ReflTransGen Interaction.Step pools.left last)
    (idle : pools.right.Quiescent) :
    Relation.ReflTransGen (Step told told') pools
      ⟨last, pools.right, pools.trail ++ told.since pools.left.state last.state⟩ := by
  induction path with
  | refl =>
      have none : told.since pools.left.state pools.left.state = [] := List.drop_length
      rw [none, List.append_nil]
  | tail before step ih =>
      rw [told.since_step before step, ← List.append_assoc]
      exact ih.tail (.left step (.inr idle))

theorem rights {last : Pool second} (path : Relation.ReflTransGen Interaction.Step pools.right last)
    (idle : pools.left.Quiescent) :
    Relation.ReflTransGen (Step told told') pools
      ⟨pools.left, last, pools.trail ++ told'.since pools.right.state last.state⟩ := by
  induction path with
  | refl =>
      have none : told'.since pools.right.state pools.right.state = [] := List.drop_length
      rw [none, List.append_nil]
  | tail before step ih =>
      rw [told'.since_step before step, ← List.append_assoc]
      exact ih.tail (.right step (.inl idle))

end Beside

end Interaction
