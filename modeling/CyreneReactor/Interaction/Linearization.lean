import CyreneReactor.Data.Counting
import CyreneReactor.Interaction.Trail

namespace Interaction

open Counting

/-! Interleavings as sequences of whole tenures of the lock.

As long as the calls made without the lock change nothing, a run is told by the
tenures that are over, one after the other, and by the one that is going on.
-/

variable {system : System}

/-- One thread's time with the lock: it took the free lock in `start` to run `origin`, and
holds it `depth` times. -/
inductive Tenure (caller : Caller system.Command)
    (origin : Program system.signature system.Result) (start : system.State) :
    Nat → Program system.signature system.Result → system.State → Prop where
  | taken {next : Program system.signature system.Result} (asked : origin = .acquire next) :
      Tenure caller origin start 1 next start
  | called {depth : Nat} {op : system.signature.Op}
      {next : system.signature.Answer op → Program system.signature system.Result}
      {answer : system.signature.Answer op} {state after : system.State}
      (before : Tenure caller origin start depth (.call op next) state)
      (does : system.exec caller true op state answer after) :
      Tenure caller origin start depth (next answer) after
  | retaken {depth : Nat} {next : Program system.signature system.Result} {state : system.State}
      (before : Tenure caller origin start depth (.acquire next) state) :
      Tenure caller origin start (depth + 1) next state
  | kept {depth : Nat} {next : Program system.signature system.Result} {state : system.State}
      (before : Tenure caller origin start (depth + 2) (.release next) state) :
      Tenure caller origin start (depth + 1) next state

/-- A tenure that is over: what its thread was about to run before and after it. -/
structure Entry (system : System) where
  caller : Caller system.Command
  before : Program system.signature system.Result
  after : Program system.signature system.Result
  start : system.State
  finish : system.State

/-- The thread ran alone from taking the lock to giving it back. -/
def Entry.Ran (entry : Entry system) : Prop :=
  Tenure entry.caller entry.before entry.start 1 (.release entry.after) entry.finish

/-- Each tenure began in the state the one before it left. -/
inductive Chained (start : system.State) : List (Entry system) → system.State → Prop where
  | nil : Chained start [] start
  | concat {history : List (Entry system)} {entry : Entry system}
      (before : Chained start history entry.start) (ran : entry.Ran) :
      Chained start (history ++ [entry]) entry.finish

/-- What a thread has come to through its tenures and its calls without the lock. -/
inductive Explained (caller : Caller system.Command)
    (body : Program system.signature system.Result) :
    List (Entry system) → Program system.signature system.Result → Prop where
  | start : Explained caller body [] body
  | called {own : List (Entry system)} {op : system.signature.Op}
      {next : system.signature.Answer op → Program system.signature system.Result}
      {answer : system.signature.Answer op} {state after : system.State}
      (before : Explained caller body own (.call op next))
      (does : system.exec caller false op state answer after) :
      Explained caller body own (next answer)
  | held {own : List (Entry system)} {entry : Entry system}
      (before : Explained caller body own entry.before) (mine : entry.caller = caller)
      (ran : entry.Ran) : Explained caller body (own ++ [entry]) entry.after

/-- The tenures of the thread at `index`. -/
def ownEntries (index : Nat) (history : List (Entry system)) : List (Entry system) :=
  history.filter fun entry => entry.caller.index = index

theorem ownEntries_concat (index : Nat) (history : List (Entry system)) (entry : Entry system) :
    ownEntries index (history ++ [entry]) =
      ownEntries index history ++ if entry.caller.index = index then [entry] else [] := by
  rw [ownEntries, List.filter_append, ownEntries]
  by_cases mine : entry.caller.index = index <;> simp [mine]

/-- The pool as its history tells it: `settled` is what the last tenure left. -/
structure Linearizes (start : system.State) (pool : Pool system) (history : List (Entry system))
    (settled : system.State) : Prop where
  chained : Chained start history settled
  free : pool.Quiescent → pool.state = settled
  outside : ∀ {index : Nat} {thread : Thread system}, pool.threads[index]? = some thread →
    thread.depth = 0 → Explained (thread.caller index) (system.body thread.command)
      (ownEntries index history) thread.program
  inside : ∀ {index : Nat} {thread : Thread system}, pool.threads[index]? = some thread →
    0 < thread.depth → ∃ origin, Explained (thread.caller index) (system.body thread.command)
        (ownEntries index history) origin ∧
      Tenure (thread.caller index) origin settled thread.depth thread.program pool.state
  exclusive : ∀ {left right : Nat} {first second : Thread system},
    pool.threads[left]? = some first → pool.threads[right]? = some second →
    0 < first.depth → 0 < second.depth → left = right
  started : ∀ entry ∈ history, entry.caller.index < pool.threads.length

namespace Linearizes

variable {start settled : system.State} {pool next : Pool system} {history : List (Entry system)}

theorem initial (start : system.State) : Linearizes start (Pool.initial start) [] start where
  chained := .nil
  free _ := rfl
  outside := by
    intro index thread here
    cases here
  inside := by
    intro index thread here
    cases here
  exclusive := by
    intro left right first second here
    cases here
  started entry member := absurd member List.not_mem_nil

/-- A thread with no tenure yet has the place of no entry. -/
theorem unstarted (told : Linearizes start pool history settled) :
    ownEntries pool.threads.length history = [] := by
  apply List.filter_eq_nil_iff.mpr
  intro entry member mine
  have bound := told.started entry member
  have same : entry.caller.index = pool.threads.length := by simpa using mine
  omega

theorem starts (told : Linearizes start pool history settled) (command : system.Command) :
    Linearizes start { pool with threads := pool.threads ++ [Thread.start command] } history
      settled where
  chained := told.chained
  free quiescent := told.free fun thread member => quiescent thread (List.mem_append_left _ member)
  outside := by
    intro index thread found outside
    rcases getElem?_append_singleton_cases found with old | ⟨rfl, rfl⟩
    · exact told.outside old outside
    · rw [told.unstarted]
      exact .start
  inside := by
    intro index thread found inside
    rcases getElem?_append_singleton_cases found with old | ⟨_, rfl⟩
    · exact told.inside old inside
    · exact absurd inside (Nat.lt_irrefl 0)
  exclusive := by
    intro left right first second found found' inside inside'
    rcases getElem?_append_singleton_cases found with old | ⟨_, rfl⟩
    · rcases getElem?_append_singleton_cases found' with old' | ⟨_, rfl⟩
      · exact told.exclusive old old' inside inside'
      · exact absurd inside' (Nat.lt_irrefl 0)
    · exact absurd inside (Nat.lt_irrefl 0)
  started entry member := by
    have bound := told.started entry member
    rw [List.length_append]
    omega

section Replaced

variable {index : Nat} {old new : Thread system} {state : system.State}

/-- A thread that goes on without the lock. -/
theorem stays (told : Linearizes start pool history settled)
    (here : pool.threads[index]? = some old) (outside : old.depth = 0) (still : new.depth = 0)
    (explained : Explained (new.caller index) (system.body new.command) (ownEntries index history)
      new.program) :
    Linearizes start ⟨pool.state, pool.threads.set index new⟩ history settled where
  chained := told.chained
  free quiescent := by
    apply told.free
    intro thread member
    obtain ⟨place, found⟩ := List.getElem?_of_mem member
    by_cases moved : index = place
    · subst moved
      rw [here, Option.some.injEq] at found
      exact found ▸ outside
    · exact quiescent thread (List.mem_of_getElem? ((List.getElem?_set_ne moved).trans found))
  outside := by
    intro place thread found free
    rcases getElem?_set_cases found with ⟨rfl, rfl⟩ | ⟨_, found⟩
    · exact explained
    · exact told.outside found free
  inside := by
    intro place thread found inside
    rcases getElem?_set_cases found with ⟨_, rfl⟩ | ⟨_, found⟩
    · omega
    · exact told.inside found inside
  exclusive := by
    intro left right first second found found' inside inside'
    rcases getElem?_set_cases found with ⟨_, rfl⟩ | ⟨_, found⟩
    · omega
    · rcases getElem?_set_cases found' with ⟨_, rfl⟩ | ⟨_, found'⟩
      · omega
      · exact told.exclusive found found' inside inside'
  started entry member := by
    rw [List.length_set]
    exact told.started entry member

/-- No other thread holds the lock. -/
def Alone (pool : Pool system) (index : Nat) : Prop :=
  ∀ other (thread : Thread system), pool.threads[other]? = some thread → 0 < thread.depth →
    other = index

/-- The holder goes on, or the lock is taken. -/
theorem holds (told : Linearizes start pool history settled) (alone : Alone pool index)
    (bound : index < pool.threads.length) (held : 0 < new.depth)
    {origin : Program system.signature system.Result}
    (explained : Explained (new.caller index) (system.body new.command)
      (ownEntries index history) origin)
    (tenure : Tenure (new.caller index) origin settled new.depth new.program state) :
    Linearizes start ⟨state, pool.threads.set index new⟩ history settled where
  chained := told.chained
  free quiescent := by
    have none := quiescent new (List.mem_of_getElem? (List.getElem?_set_self bound))
    omega
  outside := by
    intro place thread found free
    rcases getElem?_set_cases found with ⟨_, rfl⟩ | ⟨_, found⟩
    · omega
    · exact told.outside found free
  inside := by
    intro place thread found inside
    rcases getElem?_set_cases found with ⟨rfl, rfl⟩ | ⟨moved, found⟩
    · exact ⟨origin, explained, tenure⟩
    · exact absurd (alone place thread found inside) moved
  exclusive := by
    intro left right first second found found' inside inside'
    have single : ∀ place (thread : Thread system),
        (pool.threads.set index new)[place]? = some thread → 0 < thread.depth → place = index := by
      intro place thread found inside
      rcases getElem?_set_cases found with ⟨same, _⟩ | ⟨_, found⟩
      · exact same
      · exact alone place thread found inside
    exact (single left first found inside).trans (single right second found' inside').symm
  started entry member := by
    rw [List.length_set]
    exact told.started entry member

/-- The lock is given back, which makes the tenure an entry. -/
theorem leaves (told : Linearizes start pool history settled) (alone : Alone pool index)
    (bound : index < pool.threads.length) (left : new.depth = 0)
    {origin : Program system.signature system.Result}
    (explained : Explained (new.caller index) (system.body new.command)
      (ownEntries index history) origin)
    (tenure : Tenure (new.caller index) origin settled 1 (.release new.program) pool.state) :
    Linearizes start ⟨pool.state, pool.threads.set index new⟩
      (history ++ [⟨new.caller index, origin, new.program, settled, pool.state⟩]) pool.state where
  chained :=
    have before : Chained start history (Entry.start ⟨new.caller index, origin, new.program, settled,
      pool.state⟩) := told.chained
    .concat before tenure
  free _ := rfl
  outside := by
    intro place thread found free
    rcases getElem?_set_cases found with ⟨rfl, rfl⟩ | ⟨moved, found⟩
    · have grown := ownEntries_concat place history
        ⟨thread.caller place, origin, thread.program, settled, pool.state⟩
      rw [grown, if_pos (show (thread.caller place).index = place from rfl)]
      exact Explained.held explained rfl tenure
    · have grown := ownEntries_concat place history
        ⟨new.caller index, origin, new.program, settled, pool.state⟩
      rw [grown, if_neg (show ¬(new.caller index).index = place from Ne.symm moved),
        List.append_nil]
      exact told.outside found free
  inside := by
    intro place thread found inside
    rcases getElem?_set_cases found with ⟨_, rfl⟩ | ⟨moved, found⟩
    · omega
    · exact absurd (alone place thread found inside) moved
  exclusive := by
    intro left right first second found found' inside inside'
    rcases getElem?_set_cases found with ⟨_, rfl⟩ | ⟨moved, found⟩
    · omega
    · exact absurd (alone left first found inside) moved
  started entry member := by
    rw [List.length_set]
    rcases List.mem_append.mp member with earlier | last
    · exact told.started entry earlier
    · rw [List.mem_singleton.mp last]
      exact bound

end Replaced

/-- Calls that are made without the lock change nothing. -/
def Idle (pool : Pool system) : Prop :=
  ∀ {index : Nat} {command : system.Command} {op : system.signature.Op}
    {rest : system.signature.Answer op → Program system.signature system.Result}
    {answer : system.signature.Answer op} {after : system.State},
    pool.threads[index]? = some ⟨command, 0, .call op rest⟩ →
    system.exec ⟨index, command⟩ false op pool.state answer after → after = pool.state

/-- A step leaves the history as it is, or adds the tenure that ends with it. -/
theorem step (told : Linearizes start pool history settled) (step : Step pool next)
    (idle : Idle pool) :
    Linearizes start next history settled ∨
      ∃ entry : Entry system, entry.start = settled ∧
        Linearizes start next (history ++ [entry]) pool.state := by
  cases step with
  | start command => exact .inl (told.starts command)
  | @call index command depth op rest answer after here does =>
      left
      cases depth with
      | zero =>
          obtain rfl := idle here does
          exact told.stays here rfl rfl (.called (told.outside here rfl) does)
      | succ depth =>
          obtain ⟨origin, explained, tenure⟩ := told.inside here (Nat.succ_pos depth)
          have alone : Alone pool index := fun other thread found inside =>
            told.exclusive found here inside (Nat.succ_pos depth)
          exact told.holds alone (List.getElem?_eq_some_iff.mp here).1 (Nat.succ_pos depth) explained
            (.called tenure does)
  | @acquire index command depth rest here alone =>
      left
      have bound := (List.getElem?_eq_some_iff.mp here).1
      cases depth with
      | zero =>
          -- nobody held the lock, so the state is what the last tenure left
          have quiescent : pool.Quiescent := by
            intro thread member
            obtain ⟨place, found⟩ := List.getElem?_of_mem member
            by_contra inside
            obtain rfl := alone place thread found (by omega)
            rw [here, Option.some.injEq] at found
            subst found
            exact inside rfl
          have explained := told.outside here rfl
          have tenure : Tenure ⟨index, command⟩ (.acquire rest) settled 1 rest pool.state := by
            rw [told.free quiescent]
            exact .taken rfl
          exact told.holds alone bound Nat.one_pos explained tenure
      | succ depth =>
          obtain ⟨origin, explained, tenure⟩ := told.inside here (Nat.succ_pos depth)
          exact told.holds alone bound (Nat.succ_pos _) explained (.retaken tenure)
  | @release index command depth rest here =>
      have bound := (List.getElem?_eq_some_iff.mp here).1
      obtain ⟨origin, explained, tenure⟩ := told.inside here (Nat.succ_pos depth)
      have alone : Alone pool index := fun other thread found inside =>
        told.exclusive found here inside (Nat.succ_pos depth)
      cases depth with
      | zero => exact .inr ⟨_, rfl, told.leaves alone bound rfl explained tenure⟩
      | succ depth => exact .inl (told.holds alone bound (Nat.succ_pos depth) explained (.kept tenure))

end Linearizes

section Runs

variable {caller : Caller system.Command} {start state : system.State} {depth : Nat}
variable {origin program : Program system.signature system.Result}

theorem Tenure.depth_pos (tenure : Tenure caller origin start depth program state) : 0 < depth := by
  induction tenure with
  | taken => exact Nat.one_pos
  | called _ _ ih => exact ih
  | retaken _ ih | kept _ ih => omega

/-- A tenure runs like the program left alone. -/
theorem Tenure.runs (tenure : Tenure caller origin start depth program state) :
    Runs caller 0 origin start depth program state := by
  induction tenure with
  | taken asked =>
      subst asked
      exact .acquire .refl
  | called before does ih =>
      apply ih.call_last
      rw [decide_eq_true before.depth_pos]
      exact does
  | retaken before ih => exact ih.acquire_last
  | kept before ih => exact ih.release_last

theorem Entry.Ran.runs {entry : Entry system} (ran : entry.Ran) :
    Runs entry.caller 0 entry.before entry.start 0 entry.after entry.finish :=
  (Tenure.runs ran).release_last

/-- A tenure of a `with lock:` is still inside its body. -/
theorem Tenure.held {α : Type} {body : Program system.signature α}
    {finish : α → Program system.signature system.Result}
    {guarantee : system.State → system.State → Prop} {post : α → system.State → Prop}
    (held : Held caller guarantee 0 body post start)
    (tenure : Tenure caller (.acquire (body.bind fun value => .release (finish value))) start depth
      program state) :
    ∃ rest outer, depth = outer + 1 ∧
      program = rest.bind (fun value => .release (finish value)) ∧
      Held caller guarantee outer rest post state := by
  induction tenure with
  | taken asked =>
      cases asked
      exact ⟨body, 0, rfl, rfl, held⟩
  | @called depth op next answer state after before does ih =>
      obtain ⟨rest, outer, rfl, same, held⟩ := ih
      cases rest with
      | pure value => cases same
      | call op' continued =>
          cases same
          exact ⟨_, outer, rfl, rfl, (held answer after does).2⟩
      | acquire | release => cases same
  | retaken before ih =>
      obtain ⟨rest, outer, rfl, same, held⟩ := ih
      cases rest with
      | pure value => cases same
      | acquire continued =>
          cases same
          exact ⟨_, outer + 1, rfl, rfl, held⟩
      | call | release => cases same
  | @kept depth next state before ih =>
      obtain ⟨rest, outer, same, program, held⟩ := ih
      obtain rfl : outer = depth + 1 := by omega
      cases rest with
      | pure value => exact absurd held.1 (Nat.succ_ne_zero depth)
      | release continued =>
          cases program
          exact ⟨_, depth, rfl, rfl, held⟩
      | call | acquire => cases program

/-- A `with lock:` is left only at its end. -/
theorem Entry.Ran.locked {entry : Entry system} {body : Program system.signature system.Result}
    {guarantee : system.State → system.State → Prop}
    {post : system.Result → system.State → Prop} (ran : entry.Ran)
    (locks : entry.before = Program.locked body)
    (held : Held entry.caller guarantee 0 body post entry.start) :
    ∃ result, entry.after = .pure result ∧ post result entry.finish := by
  have tenure : Tenure entry.caller (.acquire (body.bind fun value => .release (.pure value)))
      entry.start 1 (.release entry.after) entry.finish := by
    rw [← Program.locked, ← locks]
    exact ran
  obtain ⟨rest, outer, depth, same, held⟩ := tenure.held held
  obtain rfl : outer = 0 := by omega
  cases rest with
  | pure value =>
      injection same with same
      exact ⟨value, same, held.2⟩
  | release continued => exact held.elim
  | call | acquire => cases same

end Runs

section Threads

variable {α β : Type} {signature : Signature}

/-- Whenever the program takes the lock first, it goes on as one of the sections. -/
def Program.Enters (sections : Program signature α → Prop) : Program signature α → Prop
  | .pure _ => True
  | .call _ next => ∀ answer, (next answer).Enters sections
  | .acquire next => sections (.acquire next)
  | .release _ => False

variable {caller : Caller system.Command} {start settled : system.State}
variable {body program : Program system.signature system.Result}
variable {sections : Program system.signature system.Result → Prop}
variable {own history : List (Entry system)}

/-- A thread whose first section is left only at its end has no other. -/
theorem Explained.single (explained : Explained caller body own program) (enters : body.Enters sections)
    (ends : ∀ entry, own.head? = some entry → entry.caller = caller → entry.Ran →
      sections entry.before → ∃ result, entry.after = .pure result) :
    (own = [] ∧ program.Enters sections) ∨
      ∃ entry result, own = [entry] ∧ entry.caller = caller ∧ entry.Ran ∧ sections entry.before ∧
        entry.after = .pure result ∧ program = .pure result := by
  induction explained with
  | start => exact .inl ⟨rfl, enters⟩
  | @called own op next answer state after before does ih =>
      rcases ih ends with ⟨none, goes⟩ | ⟨entry, result, _, _, _, _, _, finished⟩
      · exact .inl ⟨none, goes answer⟩
      · cases finished
  | @held own entry before mine ran ih =>
      have asks : ∃ next, entry.before = .acquire next := by
        have first : ∀ {depth program state},
            Tenure entry.caller entry.before entry.start depth program state →
            ∃ next, entry.before = .acquire next := by
          intro depth program state tenure
          induction tenure with
          | taken asked => exact ⟨_, asked⟩
          | called _ _ ih | retaken _ ih | kept _ ih => exact ih
        exact first ran
      obtain ⟨next, asks⟩ := asks
      have ends' : ∀ earlier, own.head? = some earlier → earlier.caller = caller → earlier.Ran →
          sections earlier.before → ∃ result, earlier.after = .pure result := by
        intro earlier head
        apply ends earlier
        rw [List.head?_append, head]
        rfl
      rcases ih ends' with ⟨rfl, goes⟩ | ⟨_, result, _, _, _, _, _, finished⟩
      · rw [asks] at goes
        have chosen : sections entry.before := asks ▸ goes
        obtain ⟨result, after⟩ := ends entry rfl mine ran chosen
        exact .inr ⟨entry, result, rfl, mine, ran, chosen, after, after⟩
      · rw [asks] at finished
        cases finished

/-- Who asks for the lock first does nothing before its first tenure. -/
theorem Explained.waits {next : Program system.signature system.Result}
    (explained : Explained caller (.acquire next) own program) (none : own = []) :
    program = .acquire next := by
  induction explained with
  | start => rfl
  | called before does ih => cases ih none
  | held before mine ran ih => cases List.append_ne_nil_of_right_ne_nil _ (List.cons_ne_nil _ _) none

/-- What came before the first tenure of a thread. -/
theorem Chained.first {index : Nat} {entry : Entry system} (chained : Chained start history settled)
    (head : (ownEntries index history).head? = some entry) :
    ∃ earlier, Chained start earlier entry.start ∧ ownEntries index earlier = [] := by
  induction chained with
  | nil => cases head
  | @concat history last before ran ih =>
      rw [ownEntries_concat, List.head?_append] at head
      cases earlier : ownEntries index history with
      | nil =>
          rw [earlier] at head
          by_cases mine : last.caller.index = index
          · rw [if_pos mine] at head
            cases head
            exact ⟨history, before, earlier⟩
          · rw [if_neg mine] at head
            cases head
      | cons first rest =>
          rw [earlier] at head
          apply ih
          rw [earlier]
          exact head

end Threads

end Interaction
