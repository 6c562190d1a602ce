import CyreneReactor.Interaction.Pool

namespace Interaction

/-! What a program calls, by how often it holds the lock.

The rule for a call knows neither what was called before nor the state, so what is
shown of a program holds of it in every pool.
-/

section Programs

variable {signature : Signature} {α β ε : Type} {rule : Nat → signature.Op → Prop}
  {admits : (op : signature.Op) → signature.Answer op → Prop} {depth : Nat}

namespace Program

/-- Every call is one `rule` allows at its depth, whatever the calls are answered within
`admits`, and `post` holds of the result and of the depth at the end. -/
def Calls (rule : Nat → signature.Op → Prop)
    (admits : (op : signature.Op) → signature.Answer op → Prop) :
    Nat → Program signature α → (α → Nat → Prop) → Prop
  | depth, .pure value, post => post value depth
  | depth, .call op next, post =>
      rule depth op ∧ ∀ answer, admits op answer → (next answer).Calls rule admits depth post
  | depth, .acquire next, post => next.Calls rule admits (depth + 1) post
  | 0, .release _, _ => True
  | depth + 1, .release next, post => next.Calls rule admits depth post

theorem Calls.mono {program : Program signature α} {strong weak : α → Nat → Prop}
    (calls : program.Calls rule admits depth strong)
    (implies : ∀ value depth, strong value depth → weak value depth) :
    program.Calls rule admits depth weak := by
  induction program generalizing depth with
  | pure value => exact implies value depth calls
  | call op next ih => exact ⟨calls.1, fun answer admitted => ih answer (calls.2 answer admitted)⟩
  | acquire next ih => exact ih calls
  | release next ih =>
      cases depth with
      | zero => trivial
      | succ depth => exact ih calls

theorem Calls.bind {program : Program signature α} {next : α → Program signature β}
    {post : β → Nat → Prop}
    (calls : program.Calls rule admits depth
      (fun value depth => (next value).Calls rule admits depth post)) :
    (program.bind next).Calls rule admits depth post := by
  induction program generalizing depth with
  | pure value => exact calls
  | call op rest ih => exact ⟨calls.1, fun answer admitted => ih answer (calls.2 answer admitted)⟩
  | acquire rest ih => exact ih calls
  | release rest ih =>
      cases depth with
      | zero => trivial
      | succ depth => exact ih calls

end Program

namespace Fallible

/-- The program calls as the rule allows and gives back what it takes of the lock. -/
def Calls (rule : Nat → signature.Op → Prop)
    (admits : (op : signature.Op) → signature.Answer op → Prop) (depth : Nat)
    (program : Fallible signature ε α) : Prop :=
  program.run.Calls rule admits depth fun _ after => after = depth

theorem Calls.bind {first : Fallible signature ε α} {next : α → Fallible signature ε β}
    (calls : Calls rule admits depth first) (rest : ∀ value, Calls rule admits depth (next value)) :
    Calls rule admits depth (first >>= next) := by
  unfold Calls
  rw [ExceptT.run_bind]
  apply Program.Calls.bind
  apply calls.mono
  intro outcome after same
  subst same
  cases outcome with
  | ok value => exact rest value
  | error raised => rfl

theorem Calls.pure (value : α) : Calls rule admits depth (pure value : Fallible signature ε α) :=
  rfl

theorem Calls.ofExcept (outcome : Except ε α) :
    Calls rule admits depth (ofExcept outcome : Fallible signature ε α) := rfl

theorem Calls.throw (raised : ε) :
    Calls rule admits depth (throw raised : Fallible signature ε α) := rfl

theorem Calls.perform {op : signature.Op} (allowed : rule depth op) :
    Calls rule admits depth (perform op : Fallible signature ε _) :=
  ⟨allowed, fun _ _ => rfl⟩

/-- What follows a call may rely on what its answer is. -/
theorem Calls.answered {op : signature.Op} {next : signature.Answer op → Fallible signature ε β}
    (allowed : rule depth op)
    (rest : ∀ answer, admits op answer → Calls rule admits depth (next answer)) :
    Calls rule admits depth (Fallible.perform op >>= next) :=
  ⟨allowed, rest⟩

theorem Calls.locked {body : Fallible signature ε α} (calls : Calls rule admits (depth + 1) body) :
    Calls rule admits depth (locked body) := by
  apply Program.Calls.bind
  apply Program.Calls.mono calls
  intro outcome after same
  subst same
  exact rfl

end Fallible

end Programs

section Pools

variable {system : System} {rule : Nat → system.signature.Op → Prop}
  {admits : (op : system.signature.Op) → system.signature.Answer op → Prop}
  {pool next : Pool system}

/-- What every thread still has to call is allowed. -/
def Calling (rule : Nat → system.signature.Op → Prop)
    (admits : (op : system.signature.Op) → system.signature.Answer op → Prop)
    (pool : Pool system) : Prop :=
  ∀ thread ∈ pool.threads, thread.program.Calls rule admits thread.depth fun _ _ => True

/-- A step is an allowed call, or leaves the state alone. -/
theorem Calling.moves (calling : Calling rule admits pool) (step : Step pool next) :
    next.state = pool.state ∨ ∃ caller depth op answer, rule depth op ∧
      system.exec caller (decide (0 < depth)) op pool.state answer next.state := by
  cases step with
  | start command => exact .inl rfl
  | call here does =>
      have allowed := (calling _ (List.mem_of_getElem? here)).1
      exact .inr ⟨_, _, _, _, allowed, does⟩
  | acquire here free => exact .inl rfl
  | release here => exact .inl rfl

theorem Calling.replace (calling : Calling rule admits pool) (state : system.State) {index : Nat}
    {thread : Thread system}
    (calls : thread.program.Calls rule admits thread.depth fun _ _ => True) :
    Calling rule admits ⟨state, pool.threads.set index thread⟩ := by
  intro other member
  rcases List.mem_or_eq_of_mem_set member with old | rfl
  · exact calling other old
  · exact calls

/-- Threads go on as their programs allow where every allowed call is answered within
`admits`. -/
theorem Calling.step
    (bodies : ∀ command, (system.body command).Calls rule admits 0 fun _ _ => True)
    (calling : Calling rule admits pool) (step : Step pool next)
    (admitted : ∀ caller depth op answer, rule depth op →
      system.exec caller (decide (0 < depth)) op pool.state answer next.state → admits op answer) :
    Calling rule admits next := by
  cases step with
  | start command =>
      intro thread member
      rcases List.mem_append.mp member with old | new
      · exact calling thread old
      · rw [List.mem_singleton.mp new]
        exact bodies command
  | @call index command depth op rest answer state here does =>
      have calls := calling _ (List.mem_of_getElem? here)
      exact calling.replace state (calls.2 answer (admitted _ _ _ _ calls.1 does))
  | acquire here free =>
      have calls := calling _ (List.mem_of_getElem? here)
      exact calling.replace pool.state calls
  | release here =>
      have calls := calling _ (List.mem_of_getElem? here)
      exact calling.replace pool.state calls

end Pools

end Interaction
