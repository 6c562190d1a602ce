import CyreneReactor.Data.Counting
import CyreneReactor.Guarantees.StreamBuffering
import CyreneReactor.Interaction.Termination
import CyreneReactor.Runtime.StreamBuffer
import Mathlib.Algebra.Field.Rat

namespace CyreneReactor.Runtime.StreamBuffer

open Interaction

/-! Who waits at a `StreamBuffer`, and why.

The waits share one condition, and every change of the buffer notifies them all.
-/

variable {α : Type} {state next : State α} {index : Nat} {start now : Rat}

/-- The items a push still has to add. -/
def Push.left (push : Push α) : Nat :=
  match push.extending with
  | none => 1
  | some (rest, _) => rest.length + 1

def Thread.left : Thread α → Nat
  | pushing push | pushWaiting push _ _ => push.left
  | popping _ _ | popWaiting _ _ _ | draining _ | closing => 1
  | ended _ => 0

/-- The thread goes on when it gets the lock. -/
def Thread.awake : Thread α → Bool
  | pushing _ | popping _ _ | draining _ | closing => true
  | pushWaiting _ _ notified | popWaiting _ _ notified => notified
  | ended _ => false

def Thread.waits : Thread α → Bool
  | pushWaiting _ _ _ | popWaiting _ _ _ => true
  | _ => false

/-- What a thread that was not notified waits for is not there. -/
def Thread.Blocked (state : State α) : Thread α → Prop
  | pushWaiting _ _ false => state.maxSize ≤ state.queue.length
  | popWaiting _ _ false => state.queue = [] ∧ state.closed = false
  | _ => True

/-- Nobody sleeps who could go on. -/
def Wakeful (state : State α) : Prop := ∀ thread ∈ state.threads, thread.Blocked state

theorem Push.left_pos (push : Push α) : 0 < push.left := by
  unfold left
  split <;> omega

theorem Push.accepted_left (push : Push α) : push.accepted.left < push.left := by
  obtain ⟨item, block, timeout, extending⟩ := push
  cases extending with
  | none => simp [accepted, Thread.left, left]
  | some more =>
      obtain ⟨rest, count⟩ := more
      cases rest with
      | nil => simp [accepted, Thread.left, left]
      | cons item rest => simp [accepted, Thread.left, left]

theorem Push.rejected_left (push : Push α) : push.rejected.left < push.left := by
  have some := push.left_pos
  unfold rejected
  split <;> exact some

theorem Push.accepted_waits (push : Push α) : push.accepted.waits = false := by
  unfold accepted
  split <;> rfl

theorem Push.rejected_waits (push : Push α) : push.rejected.waits = false := by
  unfold rejected
  split <;> rfl

theorem Command.begin_waits (command : Command α) : command.begin.waits = false := by
  cases command with
  | extend items block => cases items <;> rfl
  | push | pop | drain | close => rfl

@[simp] theorem Thread.notify_left (thread : Thread α) : thread.notify.left = thread.left := by
  cases thread <;> rfl

theorem Thread.notify_blocked (state : State α) (thread : Thread α) :
    thread.notify.Blocked state := by
  cases thread <;> trivial

theorem Thread.blocked_of_waits {thread : Thread α} (waits : thread.waits = false) :
    thread.Blocked state := by
  cases thread with
  | pushWaiting | popWaiting => cases waits
  | pushing | popping | draining | closing | ended => trivial

theorem Thread.Blocked.same {thread : Thread α} (blocked : thread.Blocked state)
    (queue : next.queue = state.queue) (closed : next.closed = state.closed)
    (maxSize : next.maxSize = state.maxSize) : thread.Blocked next := by
  cases thread with
  | pushWaiting push start notified =>
      cases notified with
      | false =>
          simp only [Blocked, queue, maxSize] at blocked ⊢
          exact blocked
      | true => trivial
  | popWaiting timeout start notified =>
      cases notified with
      | false =>
          simp only [Blocked, queue, closed] at blocked ⊢
          exact blocked
      | true => trivial
  | pushing | popping | draining | closing | ended => trivial

/-- A section in which a thread gets on: either it leaves the buffer alone, or it notifies
everybody. -/
structure GetsOn (state : State α) (index : Nat) (new : Thread α) (next : State α) : Prop where
  onward : new.waits = false
  maxSize : next.maxSize = state.maxSize
  threads : next.threads = (state.threads.map Thread.notify).set index new ∨
    (next.threads = state.threads.set index new ∧ next.queue = state.queue ∧
      next.closed = state.closed)

theorem pushLoop_cases (state : State α) (index : Nat) (push : Push α) (start now : Rat) :
    (∃ new : Thread α, new.left < push.left ∧
      GetsOn state index new (state.pushLoop index push start now)) ∨
    (expired push.timeout start now = false ∧ state.maxSize ≤ state.queue.length ∧
      state.pushLoop index push start now =
        state.setThread index (.pushWaiting push start false)) := by
  unfold State.pushLoop
  split
  · exact .inl ⟨push.accepted, push.accepted_left, push.accepted_waits, rfl, .inl rfl⟩
  · rename_i full
    split
    · exact .inl ⟨push.rejected, push.rejected_left, push.rejected_waits, rfl, .inr ⟨rfl, rfl, rfl⟩⟩
    · rename_i patient
      simp only [Bool.or_eq_true, not_or, Bool.not_eq_true] at patient
      exact .inr ⟨patient.2, Nat.le_of_not_lt full, rfl⟩

theorem popLoop_cases (state : State α) (index : Nat) (block : Bool) (timeout : Option Rat)
    (start now : Rat) :
    (∃ result, GetsOn state index (.ended result) (state.popLoop index block timeout start now)) ∨
    (expired timeout start now = false ∧ state.queue = [] ∧ state.closed = false ∧
      state.popLoop index block timeout start now =
        state.setThread index (.popWaiting timeout start false)) := by
  unfold State.popLoop
  split
  · rename_i item rest front
    exact .inl ⟨.popped item, rfl, rfl, .inl rfl⟩
  · rename_i empty
    split
    · exact .inl ⟨.raised .closedAndDrained, rfl, rfl, .inr ⟨rfl, rfl, rfl⟩⟩
    · rename_i opened
      split
      · exact .inl ⟨.raised .emptyNonBlocking, rfl, rfl, .inr ⟨rfl, rfl, rfl⟩⟩
      · split
        · exact .inl ⟨.raised .timedOut, rfl, rfl, .inr ⟨rfl, rfl, rfl⟩⟩
        · rename_i early
          exact .inr ⟨by simpa using early, empty, by simpa using opened, rfl⟩

/-- No new call, and nobody comes back from a wait without being notified or late. -/
def Timely (state : State α) : Event α → Prop
  | .call _ => False
  | .enter _ _ _ => True
  | .resume index now =>
      ∀ thread, state.threads[index]? = some thread →
        thread.awake = true ∨ ∃ timeout start, expired timeout start now = true ∧
          ((∃ push notified, thread = .pushWaiting push start notified ∧ push.timeout = timeout) ∨
            ∃ notified, thread = .popWaiting timeout start notified)

theorem Timely.push_woken {push : Push α} {notified : Bool}
    (timely : Timely state (.resume index now))
    (here : state.threads[index]? = some (.pushWaiting push start notified))
    (early : expired push.timeout start now = false) : notified = true := by
  rcases timely _ here with woken | ⟨timeout, since, late, ⟨_, _, same, rfl⟩ | ⟨_, same⟩⟩
  · exact woken
  · cases same
    rw [early] at late
    cases late
  · cases same

theorem Timely.pop_woken {timeout : Option Rat} {notified : Bool}
    (timely : Timely state (.resume index now))
    (here : state.threads[index]? = some (.popWaiting timeout start notified))
    (early : expired timeout start now = false) : notified = true := by
  rcases timely _ here with woken | ⟨timeout, since, late, ⟨_, _, same, _⟩ | ⟨_, same⟩⟩
  · exact woken
  · cases same
  · cases same
    rw [early] at late
    cases late

/-- A step of a call that was made before. -/
inductive Moves (state : State α) (event : Event α) (next : State α) : Prop where
  | getsOn {index : Nat} {old : Thread α} (new : Thread α) (here : state.threads[index]? = some old)
      (less : new.left < old.left) (on : GetsOn state index new next)
  | waits {index : Nat} {old : Thread α} (new : Thread α) (here : state.threads[index]? = some old)
      (same : new.left = old.left) (asleep : new.awake = false) (blocked : new.Blocked state)
      (woken : Timely state event → old.awake = true) (sets : next = state.setThread index new)

theorem moves_of_enter (stepped : state.enter index start now = some next) :
    Moves state (.enter index start now) next := by
  unfold State.enter at stepped
  split at stepped
  · rename_i push here
    split at stepped
    · cases stepped
      exact .getsOn (.ended _) here push.left_pos ⟨rfl, rfl, .inr ⟨rfl, rfl, rfl⟩⟩
    · cases stepped
      rcases pushLoop_cases state index push start now with
        ⟨new, less, on⟩ | ⟨_, full, sets⟩
      · exact .getsOn new here less on
      · exact .waits (.pushWaiting push start false) here rfl rfl full (fun _ => rfl) sets
  · rename_i block timeout here
    cases stepped
    rcases popLoop_cases state index block timeout start now with
      ⟨result, on⟩ | ⟨_, empty, opened, sets⟩
    · exact .getsOn (.ended result) here Nat.one_pos on
    · exact .waits (.popWaiting timeout start false) here rfl rfl ⟨empty, opened⟩
        (fun _ => rfl) sets
  · rename_i maxItems here
    cases stepped
    exact .getsOn (.ended _) here Nat.one_pos ⟨rfl, rfl, .inl rfl⟩
  · rename_i here
    cases stepped
    exact .getsOn (.ended _) here Nat.one_pos ⟨rfl, rfl, .inl rfl⟩
  · cases stepped

theorem moves_of_resume (stepped : state.resume index now = some next) :
    Moves state (.resume index now) next := by
  unfold State.resume at stepped
  split at stepped
  · rename_i push start notified here
    split at stepped
    · cases stepped
      rcases pushLoop_cases state index push start now with
        ⟨new, less, on⟩ | ⟨early, full, sets⟩
      · exact .getsOn new here less on
      · exact .waits (.pushWaiting push start false) here rfl rfl full
          (fun timely => timely.push_woken here early) sets
    · cases stepped
  · rename_i timeout start notified here
    split at stepped
    · cases stepped
      rcases popLoop_cases state index true timeout start now with
        ⟨result, on⟩ | ⟨early, empty, opened, sets⟩
      · exact .getsOn (.ended result) here Nat.one_pos on
      · exact .waits (.popWaiting timeout start false) here rfl rfl ⟨empty, opened⟩
          (fun timely => timely.pop_woken here early) sets
    · cases stepped
  · cases stepped

theorem Wakeful.moves {event : Event α} (wakeful : Wakeful state) (moves : Moves state event next) :
    Wakeful next := by
  intro thread member
  cases moves with
  | getsOn new here less on =>
      rcases on.threads with notified | ⟨kept, queue, closed⟩
      · rw [notified] at member
        rcases List.mem_or_eq_of_mem_set member with old | rfl
        · obtain ⟨before, _, rfl⟩ := List.mem_map.mp old
          exact before.notify_blocked next
        · exact Thread.blocked_of_waits on.onward
      · rw [kept] at member
        rcases List.mem_or_eq_of_mem_set member with old | rfl
        · exact (wakeful thread old).same queue closed on.maxSize
        · exact Thread.blocked_of_waits on.onward
  | waits new here same asleep blocked woken sets =>
      rw [sets] at member ⊢
      rcases List.mem_or_eq_of_mem_set member with old | rfl
      · exact (wakeful thread old).same rfl rfl rfl
      · exact blocked.same rfl rfl rfl

theorem Wakeful.step (wakeful : Wakeful state) {event : Event α}
    (stepped : state.step event = some next) : Wakeful next := by
  cases event with
  | call command =>
      cases stepped
      intro thread member
      rcases List.mem_append.mp member with old | new
      · exact (wakeful thread old).same rfl rfl rfl
      · rw [List.mem_singleton.mp new]
        exact Thread.blocked_of_waits command.begin_waits
  | enter index start now => exact wakeful.moves (moves_of_enter stepped)
  | resume index now => exact wakeful.moves (moves_of_resume stepped)

/-- What the threads still have to do. -/
def State.left (state : State α) : Nat := Counting.total Thread.left state.threads

def State.awake (state : State α) : Nat := state.threads.countP Thread.awake

theorem Moves.lowers {event : Event α} (moves : Moves state event next)
    (timely : Timely state event) :
    next.left < state.left ∨ next.left = state.left ∧ next.awake < state.awake := by
  cases moves with
  | @getsOn index old new here less on =>
      left
      have sum : Counting.total Thread.left (state.threads.set index new) + old.left =
          state.left + new.left := Counting.total_set Thread.left here new
      rcases on.threads with notified | ⟨kept, _, _⟩
      · have here' : (state.threads.map Thread.notify)[index]? = some old.notify := by
          simp [here]
        have notifiedSum := Counting.total_set Thread.left here' new
        rw [Counting.total_map Thread.notify_left, ← notified, Thread.notify_left] at notifiedSum
        unfold State.left
        omega
      · rw [← kept] at sum
        unfold State.left at sum ⊢
        omega
  | @waits index old new here same asleep blocked woken sets =>
      right
      have sum := Counting.total_set Thread.left here new
      have count := Counting.countP_set Thread.awake here new
      rw [asleep, woken timely] at count
      subst sets
      simp only [State.left, State.awake, State.setThread, Bool.toNat_true, Bool.toNat_false]
        at count ⊢
      omega

theorem terminates : (machine : Machine (State α) (Event α)).Terminates Timely := by
  apply Machine.terminates_of_lowers State.left State.awake
  intro state event next timely stepped
  cases event with
  | call command => exact timely.elim
  | enter index start now => exact (moves_of_enter stepped).lowers timely
  | resume index now => exact (moves_of_resume stepped).lowers timely

/-- Every call is over, or all that are left wait for room, or all wait for an item. -/
structure Settled (state : State α) : Prop where
  rests : ∀ thread ∈ state.threads, (∃ result, thread = .ended result) ∨
    (∃ push start, thread = .pushWaiting push start false ∧ push.timeout = none) ∨
    ∃ start, thread = .popWaiting none start false
  producers : ∀ push start, .pushWaiting push start false ∈ state.threads →
    state.queue.length = state.maxSize ∧ ∀ thread ∈ state.threads, ∀ timeout start notified,
      thread ≠ .popWaiting timeout start notified
  consumers : ∀ timeout start, .popWaiting timeout start false ∈ state.threads →
    state.queue = [] ∧ state.closed = false ∧ ∀ thread ∈ state.threads, ∀ push start notified,
      thread ≠ .pushWaiting push start notified

theorem enter_of_unentered {thread : Thread α} (here : state.threads[index]? = some thread)
    (awake : thread.awake = true) (outside : thread.waits = false) :
    state.enter index start now ≠ none := by
  unfold State.enter
  rw [here]
  cases thread with
  | pushing push =>
      simp only
      split <;> simp
  | popping | draining | closing => simp
  | pushWaiting | popWaiting => cases outside
  | ended => cases awake

theorem resume_of_awake {thread : Thread α} (here : state.threads[index]? = some thread)
    (awake : thread.awake = true) (inside : thread.waits = true) :
    state.resume index now ≠ none := by
  unfold State.resume
  rw [here]
  cases thread with
  | pushWaiting push start notified | popWaiting timeout start notified =>
      cases awake
      simp
  | pushing | popping | draining | closing | ended => cases inside

theorem expired_at_last (timeout start : Rat) :
    expired (some timeout) start (start + timeout) = true := by
  simp [expired, add_sub_cancel_left]

/-- Who is awake takes a step. -/
theorem asleep_of_atRest (rest : machine.AtRest Timely state) {thread : Thread α}
    (here : state.threads[index]? = some thread) : thread.awake = false := by
  by_contra awake
  rw [Bool.not_eq_false] at awake
  cases inside : thread.waits with
  | false => exact enter_of_unentered here awake inside (rest (.enter index 0 0) trivial)
  | true =>
      refine resume_of_awake here awake inside (rest (.resume index 0) ?_)
      intro other there
      cases here.symm.trans there
      exact .inl awake

/-- A thread that can never go on has ended, or waits for ever. -/
theorem rests_of_atRest (rest : machine.AtRest Timely state) {thread : Thread α}
    (here : state.threads[index]? = some thread) : (∃ result, thread = .ended result) ∨
      (∃ push start, thread = .pushWaiting push start false ∧ push.timeout = none) ∨
      ∃ start, thread = .popWaiting none start false := by
  have asleep := asleep_of_atRest rest here
  cases thread with
  | pushing | popping | draining | closing => cases asleep
  | ended result => exact .inl ⟨result, rfl⟩
  | pushWaiting push start notified =>
      cases asleep
      cases patience : push.timeout with
      | none => exact .inr (.inl ⟨push, start, rfl, patience⟩)
      | some timeout =>
          have late : Timely state (.resume index (start + timeout)) := by
            intro thread there
            cases here.symm.trans there
            exact .inr ⟨_, start, expired_at_last timeout start, .inl ⟨push, false, rfl, patience⟩⟩
          have stuck := rest _ late
          simp [machine, State.step, State.resume, here, patience] at stuck
  | popWaiting patience start notified =>
      cases asleep
      cases patience with
      | none => exact .inr (.inr ⟨start, rfl⟩)
      | some timeout =>
          have late : Timely state (.resume index (start + timeout)) := by
            intro thread there
            cases here.symm.trans there
            exact .inr ⟨_, start, expired_at_last timeout start, .inr ⟨false, rfl⟩⟩
          have stuck := rest _ late
          simp [machine, State.step, State.resume, here] at stuck

theorem settled_of_atRest (wakeful : Wakeful state) (positive : 0 < state.maxSize)
    (bounded : state.queue.length ≤ state.maxSize) (rest : machine.AtRest Timely state) :
    Settled state := by
  have rests : ∀ thread ∈ state.threads, (∃ result, thread = .ended result) ∨
      (∃ push start, thread = .pushWaiting push start false ∧ push.timeout = none) ∨
      ∃ start, thread = .popWaiting none start false := by
    intro thread member
    obtain ⟨index, here⟩ := List.getElem?_of_mem member
    exact rests_of_atRest rest here
  constructor
  · exact rests
  · intro push start member
    have full : state.maxSize ≤ state.queue.length := wakeful _ member
    refine ⟨Nat.le_antisymm bounded full, ?_⟩
    intro thread here timeout since notified same
    subst same
    rcases rests _ here with ⟨_, impossible⟩ | ⟨_, _, impossible, _⟩ | ⟨_, asleep⟩
    · cases impossible
    · cases impossible
    · cases asleep
      have empty := (wakeful _ here).1
      rw [empty, List.length_nil] at full
      omega
  · intro timeout start member
    obtain ⟨empty, opened⟩ := wakeful _ member
    refine ⟨empty, opened, ?_⟩
    intro thread here push since notified same
    subst same
    rcases rests _ here with ⟨_, impossible⟩ | ⟨_, _, asleep, _⟩ | ⟨_, impossible⟩
    · cases impossible
    · cases asleep
      have full : state.maxSize ≤ state.queue.length := wakeful _ here
      rw [empty, List.length_nil] at full
      omega
    · cases impossible

theorem Moves.maxSize {event : Event α} (moves : Moves state event next) :
    next.maxSize = state.maxSize := by
  cases moves with
  | getsOn new here less on => exact on.maxSize
  | waits new here same asleep blocked woken sets =>
      rw [sets]
      rfl

theorem maxSize_step {event : Event α} (stepped : state.step event = some next) :
    next.maxSize = state.maxSize := by
  cases event with
  | call command =>
      cases stepped
      rfl
  | enter index start now => exact (moves_of_enter stepped).maxSize
  | resume index now => exact (moves_of_resume stepped).maxSize

/-- Nobody sleeps at the buffer who could go on; the calls that were made come to rest
whatever the order of their steps; and then producers and consumers never wait for each
other. -/
theorem stream_buffer_comes_to_rest {maxSize : Nat} (positive : 0 < maxSize) {state : State α}
    (runs : machine.Runs (fun _ _ => True) (State.new maxSize) state) :
    Wakeful state ∧ (machine : Machine (State α) (Event α)).Terminates Timely ∧
      (∃ last, machine.Runs Timely state last ∧ machine.AtRest Timely last) ∧
      ∀ last, machine.Runs Timely state last → machine.AtRest Timely last → Settled last := by
  have kept : ∀ {last : State α}, machine.Runs (fun _ _ => True) (State.new maxSize) last →
      Wakeful last ∧ last.maxSize = maxSize := by
    intro last runs
    refine runs.invariant (fun state => Wakeful state ∧ state.maxSize = maxSize) ?_ ?_
    · intro state event next holds _ stepped
      exact ⟨holds.1.step stepped, (maxSize_step stepped).trans holds.2⟩
    · exact ⟨fun thread member => absurd member List.not_mem_nil, rfl⟩
  refine ⟨(kept runs).1, terminates, terminates.rests state, ?_⟩
  intro last onwards rest
  have whole := runs.trans (onwards.mono fun _ _ _ => trivial)
  obtain ⟨wakeful, size⟩ := kept whole
  exact settled_of_atRest wakeful (size ▸ positive) (fifo_of_runs whole).bounded rest

/-- A consumer waits at an empty buffer of one, and a producer comes. -/
def consumerFirst : List (Event Nat) :=
  [.call (.pop true none), .enter 0 0 0, .call (.push 1 true none), .enter 1 0 0]

theorem stream_buffer_comes_to_rest_sampled :
    ∃ state : State Nat, machine.Runs (fun _ _ => True) (State.new 1) state ∧
      state.log = [.pushed 1] ∧ state.threads.length = 2 ∧ Wakeful state ∧
      ∃ last, machine.Runs Timely state last ∧ Settled last := by
  have played : (machine.play (fun _ _ => true) (State.new 1) consumerFirst).map
      (fun state => (state.log, state.threads.length)) = some ([.pushed 1], 2) := by rfl
  obtain ⟨state, reached, found⟩ := Option.map_eq_some_iff.mp played
  have runs : machine.Runs (fun _ _ => True) (State.new 1) state :=
    Machine.runs_of_play (fun _ _ _ => trivial) reached
  obtain ⟨wakeful, _, ⟨last, onwards, rest⟩, settles⟩ :=
    stream_buffer_comes_to_rest Nat.one_pos runs
  have parts := Prod.mk.inj found
  exact ⟨state, runs, parts.1, parts.2, wakeful, last, onwards, settles last onwards rest⟩

end CyreneReactor.Runtime.StreamBuffer
