import CyreneReactor.Interaction.RelyGuarantee

namespace Interaction

/-! Sections: code that runs while its thread owns the lock.

When no discipline lets a thread change the state without the lock, a section
meets no interference at all and can be verified like a sequential program.
`Held` is that sequential reading; the depth it counts is relative to the
section, which has to give back exactly the locks it took itself.
-/

variable {system : System} {α β ε : Type}

def Held (caller : Caller system.Command) (guarantee : system.State → system.State → Prop) :
    Nat → Program system.signature α → (α → system.State → Prop) → system.State → Prop
  | depth, .pure value, post, state => depth = 0 ∧ post value state
  | depth, .call op next, post, state =>
      ∀ answer after, system.exec caller true op state answer after →
        guarantee state after ∧ Held caller guarantee depth (next answer) post after
  | depth, .acquire next, post, state => Held caller guarantee (depth + 1) next post state
  | 0, .release _, _, _ => False
  | depth + 1, .release next, post, state => Held caller guarantee depth next post state

namespace Held

variable {caller : Caller system.Command} {guarantee : system.State → system.State → Prop}

theorem mono {weak strong : α → system.State → Prop}
    {program : Program system.signature α} {depth : Nat} {state : system.State}
    (held : Held caller guarantee depth program strong state)
    (implies : ∀ value after, strong value after → weak value after) :
    Held caller guarantee depth program weak state := by
  induction program generalizing depth state with
  | pure value => exact ⟨held.1, implies _ _ held.2⟩
  | call op next ih =>
      intro answer after does
      obtain ⟨guaranteed, rest⟩ := held answer after does
      exact ⟨guaranteed, ih answer rest⟩
  | acquire next ih =>
      have inner : Held caller guarantee (depth + 1) next strong state := held
      exact ih inner
  | release next ih =>
      cases depth with
      | zero => exact held.elim
      | succ depth =>
          have outer : Held caller guarantee depth next strong state := held
          exact ih outer

/-- What a section keeps, it also keeps when less is asked of its steps. -/
theorem weaken {weaker : system.State → system.State → Prop} {post : α → system.State → Prop}
    {program : Program system.signature α} {depth : Nat} {state : system.State}
    (held : Held caller guarantee depth program post state)
    (implies : ∀ before after, guarantee before after → weaker before after) :
    Held caller weaker depth program post state := by
  induction program generalizing depth state with
  | pure value => exact held
  | call op next ih =>
      intro answer after does
      obtain ⟨guaranteed, rest⟩ := held answer after does
      exact ⟨implies _ _ guaranteed, ih answer rest⟩
  | acquire next ih =>
      have inner : Held caller guarantee (depth + 1) next post state := held
      exact ih inner
  | release next ih =>
      cases depth with
      | zero => exact held.elim
      | succ depth =>
          have outer : Held caller guarantee depth next post state := held
          exact ih outer

theorem bind {program : Program system.signature α} {next : α → Program system.signature β}
    {post : β → system.State → Prop} {depth : Nat} {state : system.State}
    (held : Held caller guarantee depth program
      (fun value after => Held caller guarantee 0 (next value) post after) state) :
    Held caller guarantee depth (program.bind next) post state := by
  induction program generalizing depth state with
  | pure value =>
      obtain ⟨rfl, rest⟩ := held
      exact rest
  | call op rest ih =>
      intro answer after does
      obtain ⟨guaranteed, continued⟩ := held answer after does
      exact ⟨guaranteed, ih answer continued⟩
  | acquire rest ih =>
      have inner : Held caller guarantee (depth + 1) rest
        (fun value after => Held caller guarantee 0 (next value) post after) state := held
      exact ih inner
  | release rest ih =>
      cases depth with
      | zero => exact held.elim
      | succ depth =>
          have outer : Held caller guarantee depth rest
            (fun value after => Held caller guarantee 0 (next value) post after) state := held
          exact ih outer

/-- Inside a section, taking the lock again changes nothing. -/
theorem locked {body : Program system.signature α} {post : α → system.State → Prop}
    {state : system.State} (held : Held caller guarantee 0 body post state) :
    Held caller guarantee 0 (Program.locked body) post state := by
  have nested : ∀ {program : Program system.signature α} {depth : Nat} {state : system.State},
      Held caller guarantee depth program post state →
      Held caller guarantee (depth + 1) (program.bind fun value => .release (.pure value))
        post state := by
    intro program depth state held
    induction program generalizing depth state with
    | pure value => exact held
    | call op next ih =>
        intro answer after does
        obtain ⟨guaranteed, rest⟩ := held answer after does
        exact ⟨guaranteed, ih answer rest⟩
    | acquire next ih =>
        have inner : Held caller guarantee (depth + 1) next post state := held
        exact ih inner
    | release next ih =>
        cases depth with
        | zero => exact held.elim
        | succ depth =>
            have outer : Held caller guarantee depth next post state := held
            exact ih outer
  exact nested held

section Fallible

variable {post : Except ε β → system.State → Prop} {state : system.State}

theorem bind_run {first : Fallible system.signature ε α} {next : α → Fallible system.signature ε β}
    (held : Held caller guarantee 0 first.run (fun outcome after =>
      match outcome with
      | .ok value => Held caller guarantee 0 (next value).run post after
      | .error raised => post (.error raised) after) state) :
    Held caller guarantee 0 (first >>= next).run post state := by
  rw [ExceptT.run_bind]
  refine bind (held.mono fun outcome after rest => ?_)
  cases outcome with
  | ok value => exact rest
  | error raised => exact ⟨rfl, rest⟩

theorem pure_run {value : β} (holds : post (.ok value) state) :
    Held caller guarantee 0 (pure value : Fallible system.signature ε β).run post state :=
  ⟨rfl, holds⟩

theorem throw_run {raised : ε} (holds : post (.error raised) state) :
    Held caller guarantee 0 (throw raised : Fallible system.signature ε β).run post state :=
  ⟨rfl, holds⟩

theorem perform_run {op : system.signature.Op}
    {goal : Except ε (system.signature.Answer op) → system.State → Prop}
    (holds : ∀ answer after, system.exec caller true op state answer after →
      guarantee state after ∧ goal (.ok answer) after) :
    Held caller guarantee 0 (Fallible.perform op : Fallible system.signature ε _).run goal state :=
  fun answer after does => ⟨(holds answer after does).1, rfl, (holds answer after does).2⟩

end Fallible

/-- A section that ran alone from the start ends with its post-condition, and
it still owns exactly the locks it had. -/
theorem runs {post : α → system.State → Prop} {program program' : Program system.signature α}
    {depth depth' : Nat} {state state' : system.State}
    (held : Held caller guarantee depth program post state)
    (ran : Runs caller (depth + 1) program state depth' program' state') :
    ∃ relative, depth' = relative + 1 ∧
      Held caller guarantee relative program' post state' ∧
      Relation.ReflTransGen guarantee state state' := by
  generalize outer : depth + 1 = total at ran
  induction ran generalizing depth with
  | refl => exact ⟨depth, outer.symm, held, .refl⟩
  | call does _ ih =>
      subst outer
      obtain ⟨guaranteed, rest⟩ := held _ _ does
      obtain ⟨relative, same, after, path⟩ := ih rest rfl
      exact ⟨relative, same, after, path.head guaranteed⟩
  | acquire _ ih =>
      have inner : Held caller guarantee (depth + 1) _ post _ := held
      exact ih inner (by omega)
  | release _ ih =>
      cases depth with
      | zero => exact held.elim
      | succ depth =>
          have outside : Held caller guarantee depth _ post _ := held
          exact ih outside (by omega)

/-- A section that ran alone to its end, and whatever follows it. -/
theorem finishes {finish : α → Program system.signature β} {post : α → system.State → Prop}
    {program : Program system.signature α} {depth : Nat} {state last : system.State} {result : β}
    (held : Held caller guarantee depth program post state)
    (ran : Runs caller (depth + 1) (program.bind finish) state 0 (.pure result) last) :
    ∃ value middle, post value middle ∧ Relation.ReflTransGen guarantee state middle ∧
      Runs caller 1 (finish value) middle 0 (.pure result) last := by
  induction program generalizing depth state with
  | pure value =>
      obtain ⟨rfl, holds⟩ := held
      exact ⟨value, state, holds, .refl, ran⟩
  | call op next ih =>
      cases ran with
      | call does rest =>
          obtain ⟨guaranteed, continued⟩ := held _ _ (by simpa using does)
          obtain ⟨value, middle, holds, path, later⟩ := ih _ continued rest
          exact ⟨value, middle, holds, path.head guaranteed, later⟩
  | acquire next ih =>
      cases ran with
      | acquire rest =>
          have inner : Held caller guarantee (depth + 1) next post state := held
          exact ih inner rest
  | release next ih =>
      cases depth with
      | zero => exact held.elim
      | succ depth =>
          cases ran with
          | release rest =>
              have outer : Held caller guarantee depth next post state := held
              exact ih outer rest

/-- A whole `with lock:` that ran alone. -/
theorem locked_finishes {post : α → system.State → Prop} {body : Program system.signature α}
    {state last : system.State} {result : α} (held : Held caller guarantee 0 body post state)
    (ran : Runs caller 0 (Program.locked body) state 0 (.pure result) last) :
    post result last ∧ Relation.ReflTransGen guarantee state last := by
  cases ran with
  | acquire rest =>
      obtain ⟨value, middle, holds, path, ending⟩ := held.finishes rest
      cases ending with
      | release rest =>
          cases rest with
          | refl => exact ⟨holds, path⟩

/-- A section that keeps a guarantee also keeps the stronger one that says how
its states arise: each of them is reached by running the section alone. -/
theorem traced {origin : Program system.signature β} {start : system.State}
    {finish : α → Program system.signature β} {post : α → system.State → Prop}
    {program : Program system.signature α} {depth : Nat} {state : system.State}
    (held : Held caller guarantee depth program post state)
    (ran : Runs caller 0 origin start (depth + 1) (program.bind finish) state) :
    Held caller
      (fun before after => guarantee before after ∧
        ∃ depth program, Runs caller 0 origin start depth program after)
      depth program
      (fun value after => post value after ∧ Runs caller 0 origin start 1 (finish value) after)
      state := by
  induction program generalizing depth state with
  | pure value =>
      obtain ⟨rfl, holds⟩ := held
      exact ⟨rfl, holds, ran⟩
  | call op next ih =>
      intro answer after does
      obtain ⟨guaranteed, rest⟩ := held answer after does
      have extended : Runs caller 0 origin start (depth + 1) ((next answer).bind finish) after :=
        Runs.call_last ran (by simpa using does)
      exact ⟨⟨guaranteed, _, _, extended⟩, ih answer rest extended⟩
  | acquire next ih =>
      have inner : Held caller guarantee (depth + 1) next post state := held
      exact ih inner (Runs.acquire_last ran)
  | release next ih =>
      cases depth with
      | zero => exact held.elim
      | succ depth =>
          have outer : Held caller guarantee depth next post state := held
          exact ih outer (Runs.release_last ran)

/-- A section is traced from the moment its lock is taken. -/
theorem traced_locked {post : α → system.State → Prop} {body : Program system.signature α}
    {start : system.State} (held : Held caller guarantee 0 body post start) :
    Held caller
      (fun before after => guarantee before after ∧
        ∃ depth program, Runs caller 0 (Program.locked body) start depth program after)
      0 body
      (fun value after => post value after ∧
        Runs caller 0 (Program.locked body) start 1 (.release (.pure value)) after)
      start :=
  traced held (.acquire .refl)

end Held

/-- Nobody changes the state without owning the lock. -/
def Discipline.Exclusive (discipline : Discipline system) : Prop :=
  ∀ caller state next, discipline.guarantee caller false state next → next = state

namespace Discipline

variable {discipline : Discipline system} {caller : Caller system.Command}

theorem Exclusive.rely_held (exclusive : discipline.Exclusive) {state next : system.State}
    (relied : discipline.rely caller true state next) : next = state := by
  induction relied with
  | refl => rfl
  | tail _ step ih =>
      obtain ⟨other, otherHeld, _, unheld, guaranteed⟩ := step
      rw [unheld rfl] at guaranteed
      exact (exclusive _ _ _ guaranteed).trans ih

/-- In an exclusive discipline the code under the lock is verified as a
section; `outer` is the number of locks held around it. -/
theorem Verified.of_held (exclusive : discipline.Exclusive)
    {program : Program system.signature α} {next : α → Program system.signature β}
    {post : β → system.State → Prop} {outer depth : Nat} {state : system.State}
    (held : Held caller (discipline.guarantee caller true) depth program
      (fun value after => discipline.Verified caller (outer + 1) (next value) post after) state) :
    discipline.Verified caller (outer + depth + 1) (program.bind next) post state := by
  induction program generalizing depth state with
  | pure value =>
      obtain ⟨rfl, rest⟩ := held
      exact rest
  | call op continuation ih =>
      intro before relied answer after does
      simp only [Nat.zero_lt_succ, decide_true] at relied does ⊢
      cases exclusive.rely_held relied
      obtain ⟨guaranteed, rest⟩ := held answer after does
      exact ⟨guaranteed, ih answer rest⟩
  | acquire continuation ih =>
      have inner : Held caller (discipline.guarantee caller true) (depth + 1) continuation
        (fun value after => discipline.Verified caller (outer + 1) (next value) post after)
        state := held
      exact ih inner
  | release continuation ih =>
      cases depth with
      | zero => exact held.elim
      | succ depth =>
          have outside : Held caller (discipline.guarantee caller true) depth continuation
            (fun value after => discipline.Verified caller (outer + 1) (next value) post after)
            state := held
          exact ih outside

/-- The rule for `with lock:` at the top of a thread: assume the lock
invariant, run the section, and give the invariant back. -/
theorem Verified.locked (exclusive : discipline.Exclusive)
    {body : Program system.signature α} {next : α → Program system.signature β}
    {post : β → system.State → Prop} {state : system.State}
    (held : ∀ before, discipline.rely caller false state before →
      discipline.lockInvariant before →
      Held caller (discipline.guarantee caller true) 0 body
        (fun value after => discipline.lockInvariant after ∧
          discipline.Verified caller 0 (next value) post after) before) :
    discipline.Verified caller 0 ((Program.locked body).bind next) post state := by
  intro before relied invariant
  have section' := (held before relied invariant).mono fun value after holds =>
    show discipline.Verified caller (0 + 1) (.release (next value)) post after from
      fun later kept => by
        cases exclusive.rely_held kept
        exact holds
  have verified : discipline.Verified caller 1 (body.bind fun value => .release (next value))
      post before := Verified.of_held exclusive section'
  rw [Program.bind_assoc]
  exact verified

end Discipline

end Interaction
