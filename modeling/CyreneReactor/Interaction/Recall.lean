import CyreneReactor.Interaction.Crash
import CyreneReactor.Interaction.Obeys

namespace Interaction

/-! What the past of a thread says about the state.

Every thread goes on as its program allows after some past, and the state has kept what
`knows` says about that past.
-/

variable {system : System} {pool next : Pool system} {lost : system.Result}
  {rule : Past system.signature → system.signature.Op → Prop}
  {admits : (op : system.signature.Op) → system.signature.Answer op → Prop}
  {knows : system.State → Past system.signature → Prop}

/-- Every thread obeys after a past the state knows. -/
def Recalls (rule : Past system.signature → system.signature.Op → Prop)
    (admits : (op : system.signature.Op) → system.signature.Answer op → Prop)
    (knows : system.State → Past system.signature → Prop) (pool : Pool system) : Prop :=
  ∀ thread ∈ pool.threads, ∃ past, knows pool.state past ∧
    thread.program.Obeys rule admits (fun _ _ => True) past

/-- The state keeps what it knows over a step, and learns of the call that was made. -/
structure Learns (rule : Past system.signature → system.signature.Op → Prop)
    (admits : (op : system.signature.Op) → system.signature.Answer op → Prop)
    (knows : system.State → Past system.signature → Prop) (state next : system.State) : Prop where
  keeps : ∀ past, knows state past → knows next past
  learns : ∀ {caller held op answer past}, system.exec caller held op state answer next →
    rule past op → knows state past → admits op answer ∧ knows next (past ++ [⟨op, answer⟩])

theorem Recalls.step (recalls : Recalls rule admits knows pool) (step : Step pool next)
    (bodies : ∀ command, (system.body command).Obeys rule admits (fun _ _ => True) [])
    (nothing : ∀ state, knows state []) (learns : Learns rule admits knows pool.state next.state) :
    Recalls rule admits knows next := by
  have replaced : ∀ (index : Nat) (new : Thread system), (∃ past, knows next.state past ∧
      new.program.Obeys rule admits (fun _ _ => True) past) →
      ∀ thread ∈ pool.threads.set index new, ∃ past, knows next.state past ∧
        thread.program.Obeys rule admits (fun _ _ => True) past := by
    intro index new goes thread member
    rcases List.mem_or_eq_of_mem_set member with old | rfl
    · obtain ⟨past, known, obeys⟩ := recalls thread old
      exact ⟨past, learns.keeps past known, obeys⟩
    · exact goes
  cases step with
  | start command =>
      intro thread member
      rcases List.mem_append.mp member with old | new
      · exact recalls thread old
      · rw [List.mem_singleton.mp new]
        exact ⟨[], nothing _, bodies command⟩
  | call here does =>
      obtain ⟨past, known, allowed, obeys⟩ := recalls _ (List.mem_of_getElem? here)
      obtain ⟨admitted, knows'⟩ := learns.learns does allowed known
      exact replaced _ _ ⟨_, knows', obeys _ admitted⟩
  | acquire here free =>
      obtain ⟨past, known, obeys⟩ := recalls _ (List.mem_of_getElem? here)
      exact replaced _ _ ⟨past, learns.keeps past known, obeys⟩
  | release here =>
      obtain ⟨past, known, obeys⟩ := recalls _ (List.mem_of_getElem? here)
      exact replaced _ _ ⟨past, learns.keeps past known, obeys⟩

theorem Recalls.crashed (nothing : ∀ state, knows state []) :
    Recalls rule admits knows (pool.crashed lost) := by
  intro thread member
  obtain ⟨old, _, rfl⟩ := List.mem_map.mp member
  obtain ⟨_, _, result, program, _⟩ := old.cut_spec lost
  rw [program]
  exact ⟨[], nothing _, trivial⟩

/-- What a thread may call now is allowed after a past the state knows. -/
theorem Recalls.allowed (recalls : Recalls rule admits knows pool) {index depth : Nat}
    {command : system.Command} {op : system.signature.Op}
    {rest : system.signature.Answer op → Program system.signature system.Result}
    (here : pool.threads[index]? = some ⟨command, depth, .call op rest⟩) :
    ∃ past, knows pool.state past ∧ rule past op := by
  obtain ⟨past, known, allowed, _⟩ := recalls _ (List.mem_of_getElem? here)
  exact ⟨past, known, allowed⟩

end Interaction
