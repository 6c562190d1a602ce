import CyreneReactor.Interaction.Section

namespace Interaction

/-! Trails: what the calls of a section leave in the state, read by an automaton.

Every call may leave one mark under one key.  Where the automaton of a key stands
says what the section has done about it so far, and so what it may do next.
-/

section Automata

variable {Place Other Mark : Type} {next : Place → Mark → Option Place}

/-- Where the marks lead from a place, when each of them is allowed. -/
def follow (next : Place → Mark → Option Place) (place : Place) (marks : List Mark) :
    Option Place :=
  marks.foldlM next place

@[simp] theorem follow_nil (place : Place) : follow next place [] = some place := rfl

theorem follow_cons {place last : Place} {mark : Mark} {rest : List Mark} :
    follow next place (mark :: rest) = some last ↔
      ∃ middle, next place mark = some middle ∧ follow next middle rest = some last := by
  simp only [follow, List.foldlM_cons, Option.bind_eq_bind, Option.bind_eq_some_iff]

theorem follow_append (place : Place) (first second : List Mark) :
    follow next place (first ++ second) =
      (follow next place first).bind fun middle => follow next middle second :=
  List.foldlM_append

theorem follow_concat {place middle : Place} {marks : List Mark} {mark : Mark}
    (followed : follow next place marks = some middle) :
    follow next place (marks ++ [mark]) = next middle mark := by
  rw [follow_append, followed]
  exact bind_pure (next middle mark)

/-- A place that nothing leads on from is the last. -/
theorem follow_stuck {place : Place} {marks : List Mark} (stuck : ∀ mark, next place mark = none)
    {last : Place} (followed : follow next place marks = some last) : last = place ∧ marks = [] := by
  cases marks with
  | nil =>
      cases followed
      exact ⟨rfl, rfl⟩
  | cons mark rest =>
      simp only [follow, List.foldlM_cons, Option.bind_eq_bind, Option.bind_eq_some_iff, stuck]
        at followed
      obtain ⟨_, absurd', _⟩ := followed
      cases absurd'

/-- Every mark was made at some place on the way. -/
theorem follow_through {place last : Place} {marks : List Mark} {mark : Mark}
    (followed : follow next place marks = some last) (member : mark ∈ marks) :
    ∃ before middle rest, next before mark = some middle ∧ follow next middle rest = some last := by
  induction marks generalizing place with
  | nil => cases member
  | cons first rest ih =>
      simp only [follow, List.foldlM_cons, Option.bind_eq_bind, Option.bind_eq_some_iff] at followed
      obtain ⟨middle, stepped, later⟩ := followed
      rcases List.mem_cons.mp member with rfl | after
      · exact ⟨place, middle, rest, stepped, later⟩
      · exact ih later after

/-- The last place is where it began, or one of the marks led there. -/
theorem follow_arrives {place last : Place} {marks : List Mark}
    (followed : follow next place marks = some last) :
    last = place ∨ ∃ mark ∈ marks, ∃ before, next before mark = some last := by
  rcases List.eq_nil_or_concat marks with rfl | ⟨earlier, mark, rfl⟩
  · cases followed
    exact .inl rfl
  · rw [List.concat_eq_append, follow_append, Option.bind_eq_some_iff] at followed
    obtain ⟨before, _, stepped⟩ := followed
    refine .inr ⟨mark, by simp, before, ?_⟩
    simpa [follow] using stepped

/-- Going on after a mark that is not allowed stays nowhere. -/
theorem follow_bind (place : Option Place) (marks : List Mark) :
    follow (fun place mark => some (place.bind (next · mark))) place marks =
      some (place.bind (follow next · marks)) := by
  induction marks generalizing place with
  | nil => cases place <;> rfl
  | cons mark rest ih =>
      simp only [follow, List.foldlM_cons, Option.bind_eq_bind, Option.bind_some]
      refine (ih _).trans ?_
      cases place <;> rfl

/-- An automaton that a second one simulates leads it along. -/
theorem follow_simulated {after : Other → Mark → Option Other} (related : Place → Other → Prop)
    (steps : ∀ place mark place' other, next place mark = some place' → related place other →
      ∃ other', after other mark = some other' ∧ related place' other')
    {place last : Place} {other : Other} {marks : List Mark}
    (followed : follow next place marks = some last) (initially : related place other) :
    ∃ other', follow after other marks = some other' ∧ related last other' := by
  induction marks generalizing place other with
  | nil =>
      cases followed
      exact ⟨other, rfl, initially⟩
  | cons mark rest ih =>
      simp only [follow, List.foldlM_cons, Option.bind_eq_bind, Option.bind_eq_some_iff]
        at followed ⊢
      obtain ⟨middle, stepped, later⟩ := followed
      obtain ⟨middle', stepped', still⟩ := steps _ _ _ _ stepped initially
      obtain ⟨other', later', ended⟩ := ih later still
      exact ⟨other', ⟨middle', stepped', later'⟩, ended⟩

end Automata

section Trails

variable {system : System} {Key Mark Place : Type}

/-- The marks a state has kept of the calls made under the lock, key by key. -/
structure Trail (system : System) (Key Mark : Type) where
  read : system.State → Key → List Mark
  mark : (op : system.signature.Op) → system.signature.Answer op → Key → Option Mark
  grows : ∀ {caller op state answer next}, system.exec caller true op state answer next →
    ∀ key, read next key = read state key ++ (mark op answer key).toList

namespace Trail

variable (trail : Trail system Key Mark) (next : Place → Mark → Option Place)
variable (start : Key → Place) (origin : system.State)

/-- Since `origin` only `key` was marked, and its automaton stands at `place`. -/
structure At (key : Key) (place : Place) (state : system.State) : Prop where
  followed : ∃ own, trail.read state key = trail.read origin key ++ own ∧
    follow next (start key) own = some place
  others : ∀ other, other ≠ key → trail.read state other = trail.read origin other

/-- Since `origin` every mark was allowed. -/
def Within (state : system.State) : Prop :=
  ∀ key, ∃ own place, trail.read state key = trail.read origin key ++ own ∧
    follow next (start key) own = some place

variable {trail next start origin} {key : Key} {place place' : Place} {state after : system.State}
variable {caller : Caller system.Command} {op : system.signature.Op}
variable {answer : system.signature.Answer op}

theorem At.initial : trail.At next start origin key (start key) origin :=
  ⟨⟨[], (List.append_nil _).symm, rfl⟩, fun _ _ => rfl⟩

theorem At.within (stands : trail.At next start origin key place state) :
    trail.Within next start origin state := by
  intro other
  by_cases same : other = key
  · subst same
    obtain ⟨own, grown, followed⟩ := stands.followed
    exact ⟨own, place, grown, followed⟩
  · exact ⟨[], start other, by rw [stands.others other same, List.append_nil], rfl⟩

theorem At.quiet (stands : trail.At next start origin key place state)
    (does : system.exec caller true op state answer after)
    (unmarked : ∀ other, trail.mark op answer other = none) :
    trail.At next start origin key place after := by
  have kept : ∀ other, trail.read after other = trail.read state other := by
    intro other
    rw [trail.grows does, unmarked]
    exact List.append_nil _
  obtain ⟨own, grown, followed⟩ := stands.followed
  exact ⟨⟨own, (kept key).trans grown, followed⟩,
    fun other different => (kept other).trans (stands.others other different)⟩

theorem At.marked {mark : Mark} (stands : trail.At next start origin key place state)
    (does : system.exec caller true op state answer after)
    (marks : trail.mark op answer key = some mark)
    (unmarked : ∀ other, other ≠ key → trail.mark op answer other = none)
    (allowed : next place mark = some place') : trail.At next start origin key place' after := by
  obtain ⟨own, grown, followed⟩ := stands.followed
  refine ⟨⟨own ++ [mark], ?_, ?_⟩, fun other different => ?_⟩
  · rw [trail.grows does, marks, grown]
    exact List.append_assoc _ _ _
  · rw [follow_concat followed, allowed]
  · rw [trail.grows does, unmarked other different, stands.others other different]
    exact List.append_nil _

end Trail

end Trails

section Sections

variable {system : System} {α β : Type} {caller : Caller system.Command}
  {guarantee : system.State → system.State → Prop}

/-- However far a `with lock:` has run alone, its steps kept the guarantee. -/
theorem Held.locked_path {post : α → system.State → Prop} {body : Program system.signature α}
    {state last : system.State} {depth : Nat} {rest : Program system.signature α}
    (held : Held caller guarantee 0 body post state)
    (ran : Runs caller 0 (Program.locked body) state depth rest last) :
    Relation.ReflTransGen guarantee state last := by
  have inside : ∀ {program : Program system.signature α} {outer : Nat} {before : system.State},
      Held caller guarantee outer program post before →
      Runs caller (outer + 1) (program.bind fun value => .release (.pure value)) before depth rest
        last → Relation.ReflTransGen guarantee before last := by
    intro program outer before held ran
    induction program generalizing outer before with
    | pure value =>
        cases ran with
        | refl => exact .refl
        | release rest =>
            cases rest with
            | refl => exact .refl
    | call op next ih =>
        cases ran with
        | refl => exact .refl
        | call does rest =>
            obtain ⟨guaranteed, continued⟩ := held _ _ (by simpa using does)
            exact (ih _ continued rest).head guaranteed
    | acquire next ih =>
        have inner : Held caller guarantee (outer + 1) next post before := held
        cases ran with
        | refl => exact .refl
        | acquire rest => exact ih inner rest
    | release next ih =>
        cases outer with
        | zero => exact held.elim
        | succ outer =>
            have outside : Held caller guarantee outer next post before := held
            cases ran with
            | refl => exact .refl
            | release rest => exact ih outside rest
  cases ran with
  | refl => exact .refl
  | acquire rest => exact inside held rest

end Sections

end Interaction
