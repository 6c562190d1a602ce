import CyreneReactor.Interaction.Pool
import Mathlib.Tactic.ByContra

namespace Interaction

/-! What a program does, told by its past: the calls it made, and what each of them
was answered.  No state comes in, so what is shown of a program so holds of it in
every pool, whatever the other threads do.
-/

structure Answered (signature : Signature) where
  op : signature.Op
  answer : signature.Answer op

abbrev Past (signature : Signature) := List (Answered signature)

section Programs

variable {signature : Signature} {α β ε : Type} {rule : Past signature → signature.Op → Prop}
  {admits : (op : signature.Op) → signature.Answer op → Prop} {past : Past signature}

namespace Program

/-- After `past`, every call is one `rule` allows, whatever the calls are answered
within `admits`, and `post` holds of the result and of the whole past. -/
def Obeys (rule : Past signature → signature.Op → Prop)
    (admits : (op : signature.Op) → signature.Answer op → Prop) :
    Program signature α → (α → Past signature → Prop) → Past signature → Prop
  | .pure value, post, past => post value past
  | .call op next, post, past =>
      rule past op ∧ ∀ answer, admits op answer →
        (next answer).Obeys rule admits post (past ++ [⟨op, answer⟩])
  | .acquire next, post, past | .release next, post, past => next.Obeys rule admits post past

theorem Obeys.mono {program : Program signature α} {strong weak : α → Past signature → Prop}
    (obeys : program.Obeys rule admits strong past)
    (implies : ∀ value past, strong value past → weak value past) :
    program.Obeys rule admits weak past := by
  induction program generalizing past with
  | pure value => exact implies value past obeys
  | call op next ih => exact ⟨obeys.1, fun answer admitted => ih answer (obeys.2 answer admitted)⟩
  | acquire next ih | release next ih => exact ih obeys

theorem Obeys.weaken {weaker : Past signature → signature.Op → Prop}
    {program : Program signature α} {post : α → Past signature → Prop}
    (obeys : program.Obeys rule admits post past)
    (implies : ∀ past op, rule past op → weaker past op) : program.Obeys weaker admits post past := by
  induction program generalizing past with
  | pure value => exact obeys
  | call op next ih =>
      exact ⟨implies past op obeys.1, fun answer admitted => ih answer (obeys.2 answer admitted)⟩
  | acquire next ih | release next ih => exact ih obeys

/-- A rule that allows everything is obeyed. -/
theorem Obeys.anything {program : Program signature α} {post : α → Past signature → Prop}
    (allows : ∀ past op, rule past op) (ends : ∀ value past, post value past) :
    program.Obeys rule admits post past := by
  induction program generalizing past with
  | pure value => exact ends value past
  | call op next ih => exact ⟨allows past op, fun answer _ => ih answer⟩
  | acquire next ih | release next ih => exact ih

theorem Obeys.bind {program : Program signature α} {next : α → Program signature β}
    {post : β → Past signature → Prop}
    (obeys : program.Obeys rule admits
      (fun value past => (next value).Obeys rule admits post past) past) :
    (program.bind next).Obeys rule admits post past := by
  induction program generalizing past with
  | pure value => exact obeys
  | call op rest ih => exact ⟨obeys.1, fun answer admitted => ih answer (obeys.2 answer admitted)⟩
  | acquire rest ih | release rest ih => exact ih obeys

end Program

namespace Fallible

variable {post : Except ε β → Past signature → Prop}

theorem obeys_bind {first : Fallible signature ε α} {next : α → Fallible signature ε β}
    (obeys : first.run.Obeys rule admits (fun outcome past =>
      match outcome with
      | .ok value => (next value).run.Obeys rule admits post past
      | .error raised => post (.error raised) past) past) :
    (first >>= next).run.Obeys rule admits post past := by
  rw [ExceptT.run_bind]
  apply Program.Obeys.bind
  apply obeys.mono
  intro outcome past rest
  cases outcome with
  | ok value => exact rest
  | error raised => exact rest

theorem obeys_call {op : signature.Op} {next : signature.Answer op → Fallible signature ε β}
    (allowed : rule past op)
    (obeys : ∀ answer, admits op answer →
      (next answer).run.Obeys rule admits post (past ++ [⟨op, answer⟩])) :
    (perform op >>= next).run.Obeys rule admits post past :=
  obeys_bind ⟨allowed, obeys⟩

theorem obeys_ofExcept {outcome : Except ε α} {next : α → Fallible signature ε β}
    (raises : ∀ raised, outcome = .error raised → post (.error raised) past)
    (returns : ∀ value, outcome = .ok value → (next value).run.Obeys rule admits post past) :
    (ofExcept outcome >>= next).run.Obeys rule admits post past := by
  apply obeys_bind
  cases outcome with
  | ok value => exact returns value rfl
  | error raised => exact raises raised rfl

end Fallible

end Programs

section Pools

variable {system : System}

/-- `told` is what each caller has done and been answered, as the state keeps it. -/
structure Tells (admits : (op : system.signature.Op) → system.signature.Answer op → Prop)
    (told : Caller system.Command → system.State → Past system.signature) : Prop where
  own : ∀ {caller held op state answer next}, system.exec caller held op state answer next →
    told caller next = told caller state ++ [⟨op, answer⟩]
  others : ∀ {caller held op state answer next other},
    system.exec caller held op state answer next → other ≠ caller → told other next = told other state
  admitted : ∀ {caller held op state answer next},
    system.exec caller held op state answer next → admits op answer

/-- Every thread goes on as its program allows after its own past, and only threads
have a past. -/
structure Obeying
    (rule : Caller system.Command → Past system.signature → system.signature.Op → Prop)
    (admits : (op : system.signature.Op) → system.signature.Answer op → Prop)
    (post : Caller system.Command → system.Result → Past system.signature → Prop)
    (told : Caller system.Command → system.State → Past system.signature)
    (pool : Pool system) : Prop where
  obeys : ∀ {index : Nat} {thread : Thread system}, pool.threads[index]? = some thread →
    thread.program.Obeys (rule (thread.caller index)) admits (post (thread.caller index))
      (told (thread.caller index) pool.state)
  started : ∀ caller, told caller pool.state ≠ [] →
    ∃ thread, pool.threads[caller.index]? = some thread ∧ thread.command = caller.command

variable {rule : Caller system.Command → Past system.signature → system.signature.Op → Prop}
  {admits : (op : system.signature.Op) → system.signature.Answer op → Prop}
  {post : Caller system.Command → system.Result → Past system.signature → Prop}
  {told : Caller system.Command → system.State → Past system.signature}
  {pool next : Pool system} {start : system.State}

/-- A step is a call the rule allows, or leaves the state alone. -/
theorem Obeying.moves (obeying : Obeying rule admits post told pool) (step : Step pool next) :
    next.state = pool.state ∨ ∃ caller held op answer,
      system.exec caller held op pool.state answer next.state ∧
        rule caller (told caller pool.state) op := by
  cases step with
  | start command => exact .inl rfl
  | call here does => exact .inr ⟨_, _, _, _, does, (obeying.obeys here).1⟩
  | acquire here free => exact .inl rfl
  | release here => exact .inl rfl

theorem Obeying.replace (obeying : Obeying rule admits post told pool) {index : Nat}
    {old new : Thread system} (here : pool.threads[index]? = some old)
    (same : new.command = old.command)
    (obeys : new.program.Obeys (rule (new.caller index)) admits (post (new.caller index))
      (told (new.caller index) pool.state)) :
    Obeying rule admits post told ⟨pool.state, pool.threads.set index new⟩ where
  obeys := by
    intro other thread found
    by_cases moved : index = other
    · subst moved
      have bound := (List.getElem?_eq_some_iff.mp here).1
      rw [List.getElem?_set_self bound, Option.some.injEq] at found
      exact found ▸ obeys
    · rw [List.getElem?_set_ne moved] at found
      exact obeying.obeys found
  started := by
    intro caller some
    obtain ⟨thread, found, command⟩ := obeying.started caller some
    by_cases moved : index = caller.index
    · subst moved
      rw [here, Option.some.injEq] at found
      have bound := (List.getElem?_eq_some_iff.mp here).1
      exact ⟨new, List.getElem?_set_self bound, same.trans (found ▸ command)⟩
    · exact ⟨thread, by rw [List.getElem?_set_ne moved, found], command⟩

theorem Obeying.step (tells : Tells admits told)
    (bodies : ∀ caller, (system.body caller.command).Obeys (rule caller) admits (post caller) [])
    (obeying : Obeying rule admits post told pool) (step : Step pool next) :
    Obeying rule admits post told next := by
  cases step with
  | start command =>
      constructor
      · intro index thread found
        by_cases old : index < pool.threads.length
        · exact obeying.obeys ((List.getElem?_append_left old).symm.trans found)
        · rw [List.getElem?_append_right (by omega), List.getElem?_singleton] at found
          split at found
          · cases found
            -- nobody has a past under the place of a new thread
            have unseen : told ⟨index, command⟩ pool.state = [] := by
              by_contra some
              obtain ⟨thread, earlier, _⟩ := obeying.started _ some
              exact old (List.getElem?_eq_some_iff.mp earlier).1
            have obeys := bodies ⟨index, command⟩
            rw [← unseen] at obeys
            exact obeys
          · cases found
      · intro caller some
        obtain ⟨thread, found, command⟩ := obeying.started caller some
        have bound := (List.getElem?_eq_some_iff.mp found).1
        exact ⟨thread, (List.getElem?_append_left bound).trans found, command⟩
  | acquire here free | release here =>
      have obeys := obeying.obeys here
      exact obeying.replace here rfl obeys
  | @call index command depth op rest answer state here does =>
      have obeys := (obeying.obeys here).2 answer (tells.admitted does)
      constructor
      · intro other thread found
        by_cases moved : index = other
        · subst moved
          have bound := (List.getElem?_eq_some_iff.mp here).1
          rw [List.getElem?_set_self bound, Option.some.injEq] at found
          subst found
          have grown := tells.own does
          simp only [Thread.caller] at obeys ⊢
          rw [grown]
          exact obeys
        · rw [List.getElem?_set_ne moved] at found
          have kept : told (thread.caller other) _ = told (thread.caller other) _ :=
            tells.others does fun same => moved (congrArg Caller.index same).symm
          simpa only [kept] using obeying.obeys found
      · intro caller some
        by_cases mine : caller = ⟨index, command⟩
        · subst mine
          have bound := (List.getElem?_eq_some_iff.mp here).1
          exact ⟨_, List.getElem?_set_self bound, rfl⟩
        · rw [tells.others does mine] at some
          obtain ⟨thread, found, named⟩ := obeying.started caller some
          by_cases moved : index = caller.index
          · subst moved
            rw [here, Option.some.injEq] at found
            have bound := (List.getElem?_eq_some_iff.mp here).1
            subst found
            exact ⟨_, List.getElem?_set_self bound, named⟩
          · exact ⟨thread, (List.getElem?_set_ne moved).trans found, named⟩

/-- Programs that obey from the start obey in every pool. -/
theorem obeying_of_reachable (tells : Tells admits told)
    (bodies : ∀ caller, (system.body caller.command).Obeys (rule caller) admits (post caller) [])
    (unseen : ∀ caller, told caller start = []) (reached : Reachable start pool) :
    Obeying rule admits post told pool := by
  induction reached with
  | refl =>
      constructor
      · intro index thread found
        cases found
      · exact fun caller some => absurd (unseen caller) some
  | tail _ step ih => exact ih.step tells bodies step

end Pools

end Interaction
