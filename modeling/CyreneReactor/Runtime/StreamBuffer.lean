import Mathlib.Data.Rat.Defs
import CyreneReactor.Interaction.Machine

namespace CyreneReactor.Runtime.StreamBuffer

open Interaction

/-! `StreamBuffer`: a bounded queue between producers and consumers, on one condition.

What a thread does between two waits happens under the lock of the condition, so it is
one step.  A waiting thread comes back when it was notified, or when it waits with a
timeout; the clock readings are part of the step.
-/

/-- The ways `BufferClosed` is raised. -/
inductive BufferClosed where
  | pushToClosed
  | closedAndDrained
  | emptyNonBlocking
  | timedOut
deriving DecidableEq

def BufferClosed.text : BufferClosed → String
  | pushToClosed => "Cannot push to a closed buffer."
  | closedAndDrained => "Buffer closed and drained."
  | emptyNonBlocking => "Buffer empty and non-blocking pop requested."
  | timedOut => "Timed out waiting for buffer items."

inductive Command (α : Type) where
  | push (item : α) (block : Bool) (timeout : Option Rat)
  | pop (block : Bool) (timeout : Option Rat)
  | extend (items : List α) (block : Bool)
  | drain (maxItems : Option Int)
  | close

inductive Result (α : Type) where
  | pushed (accepted : Bool)
  | popped (item : α)
  | extended (accepted : Nat)
  | drained (items : List α)
  | closed
  | raised (error : BufferClosed)

/-- A call of `push`; `extend` still has items to push after it, and has counted some. -/
structure Push (α : Type) where
  item : α
  block : Bool
  timeout : Option Rat
  extending : Option (List α × Nat)

inductive Thread (α : Type) where
  | pushing (push : Push α)
  | pushWaiting (push : Push α) (start : Rat) (notified : Bool)
  | popping (block : Bool) (timeout : Option Rat)
  | popWaiting (timeout : Option Rat) (start : Rat) (notified : Bool)
  | draining (maxItems : Option Int)
  | closing
  | ended (result : Result α)

/-- What became of the calls so far, in the order of their last sections. -/
inductive Entry (α : Type) where
  | pushed (item : α)
  | dropped (item : α)
  | pushRefused (item : α)
  | popped (item : α)
  | popRefused (block : Bool) (timeout : Option Rat) (error : BufferClosed)
  | drained (items : List α)
  | closed

structure State (α : Type) where
  queue : List α
  maxSize : Nat
  closed : Bool
  pushed : Nat
  popped : Nat
  dropped : Nat
  threads : List (Thread α)
  log : List (Entry α)

inductive Event (α : Type) where
  | call (command : Command α)
  | enter (thread : Nat) (start now : Rat)
  | resume (thread : Nat) (now : Rat)

variable {α : Type}

/-- How a call begins. -/
def Command.begin : Command α → Thread α
  | push item block timeout => .pushing ⟨item, block, timeout, none⟩
  | pop block timeout => .popping block timeout
  | extend [] _ => .ended (.extended 0)
  | extend (item :: rest) block => .pushing ⟨item, block, none, some (rest, 0)⟩
  | drain maxItems => .draining maxItems
  | close => .closing

/-- `push` returned `True`. -/
def Push.accepted (push : Push α) : Thread α :=
  match push.extending with
  | none => .ended (.pushed true)
  | some ([], accepted) => .ended (.extended (accepted + 1))
  | some (item :: rest, accepted) =>
      .pushing { push with item, extending := some (rest, accepted + 1) }

/-- `push` returned `False`. -/
def Push.rejected (push : Push α) : Thread α :=
  match push.extending with
  | none => .ended (.pushed false)
  | some (_, accepted) => .ended (.extended accepted)

def Thread.notify : Thread α → Thread α
  | pushWaiting push start _ => pushWaiting push start true
  | popWaiting timeout start _ => popWaiting timeout start true
  | thread => thread

/-- `remaining is not None and remaining <= 0` -/
def expired (timeout : Option Rat) (start now : Rat) : Bool :=
  match timeout with
  | none => false
  | some timeout => decide (timeout - (now - start) ≤ 0)

namespace State

/-- `StreamBuffer(max_size)` -/
def new (maxSize : Nat) : State α := ⟨[], maxSize, false, 0, 0, 0, [], []⟩

variable (state : State α)

def setThread (index : Nat) (thread : Thread α) : State α :=
  { state with threads := state.threads.set index thread }

def notifyAll : State α := { state with threads := state.threads.map Thread.notify }

def append (item : α) : State α :=
  { state with
    queue := state.queue ++ [item]
    pushed := state.pushed + 1
    log := state.log ++ [.pushed item] }

def drop (item : α) : State α :=
  { state with dropped := state.dropped + 1, log := state.log ++ [.dropped item] }

def refusePush (item : α) : State α := { state with log := state.log ++ [.pushRefused item] }

def popleft (item : α) : State α :=
  { state with
    queue := state.queue.tail
    popped := state.popped + 1
    log := state.log ++ [.popped item] }

def refusePop (block : Bool) (timeout : Option Rat) (error : BufferClosed) : State α :=
  { state with log := state.log ++ [.popRefused block timeout error] }

def takeItems (items : List α) : State α :=
  { state with
    queue := state.queue.drop items.length
    popped := state.popped + items.length
    log := state.log ++ [.drained items] }

def close : State α := { state with closed := true, log := state.log ++ [.closed] }

/-- The loop of `push`, up to its next wait. -/
def pushLoop (index : Nat) (push : Push α) (start now : Rat) : State α :=
  if state.queue.length < state.maxSize then
    (state.append push.item).notifyAll.setThread index push.accepted
  else if !push.block || expired push.timeout start now then
    (state.drop push.item).setThread index push.rejected
  else state.setThread index (.pushWaiting push start false)

/-- The loop of `pop`, up to its next wait. -/
def popLoop (index : Nat) (block : Bool) (timeout : Option Rat) (start now : Rat) : State α :=
  match state.queue with
  | item :: _ => (state.popleft item).notifyAll.setThread index (.ended (.popped item))
  | [] =>
      if state.closed then
        (state.refusePop block timeout .closedAndDrained).setThread index
          (.ended (.raised .closedAndDrained))
      else if !block then
        (state.refusePop block timeout .emptyNonBlocking).setThread index
          (.ended (.raised .emptyNonBlocking))
      else if expired timeout start now then
        (state.refusePop block timeout .timedOut).setThread index (.ended (.raised .timedOut))
      else state.setThread index (.popWaiting timeout start false)

/-- `count` in `drain`, with as many rounds as `range(count)` has. -/
def drainCount (maxItems : Option Int) : Nat :=
  match maxItems with
  | none => state.queue.length
  | some maxItems => (min (state.queue.length : Int) maxItems).toNat

/-- A thread takes the lock for the first time in its call. -/
def enter (index : Nat) (start now : Rat) : Option (State α) :=
  match state.threads[index]? with
  | some (.pushing push) =>
      if state.closed then
        some ((state.refusePush push.item).setThread index (.ended (.raised .pushToClosed)))
      else some (state.pushLoop index push start now)
  | some (.popping block timeout) => some (state.popLoop index block timeout start now)
  | some (.draining maxItems) =>
      let items := state.queue.take (state.drainCount maxItems)
      some ((state.takeItems items).notifyAll.setThread index (.ended (.drained items)))
  | some .closing => some (state.close.notifyAll.setThread index (.ended .closed))
  | _ => none

/-- A thread comes back from `wait`. -/
def resume (index : Nat) (now : Rat) : Option (State α) :=
  match state.threads[index]? with
  | some (.pushWaiting push start notified) =>
      if notified || push.timeout.isSome then some (state.pushLoop index push start now) else none
  | some (.popWaiting timeout start notified) =>
      if notified || timeout.isSome then some (state.popLoop index true timeout start now)
      else none
  | _ => none

def step : Event α → Option (State α)
  | .call command => some { state with threads := state.threads ++ [command.begin] }
  | .enter index start now => state.enter index start now
  | .resume index now => state.resume index now

end State

def machine : Machine (State α) (Event α) where
  step := State.step

/-- The sections, each with what it found. -/
inductive Section (state : State α) : State α → Prop where
  | idle : Section state state
  | append (item : α) (room : state.queue.length < state.maxSize) : Section state (state.append item)
  | drop (item : α) : Section state (state.drop item)
  | refusePush (item : α) : Section state (state.refusePush item)
  | popleft (item : α) (rest : List α) (front : state.queue = item :: rest) :
      Section state (state.popleft item)
  | refusePop (block : Bool) (timeout : Option Rat) (error : BufferClosed)
      (empty : state.queue = [])
      (closed : block = true → timeout = none → state.closed = true) :
      Section state (state.refusePop block timeout error)
  | takeItems (count : Nat) : Section state (state.takeItems (state.queue.take count))
  | close : Section state state.close

variable {state after next : State α} {index : Nat} {start now : Rat}

theorem pushLoop_section (push : Push α) : ∃ after threads, Section state after ∧
    state.pushLoop index push start now = { after with threads } := by
  unfold State.pushLoop
  split
  · rename_i room
    exact ⟨_, _, .append push.item room, rfl⟩
  · split
    · exact ⟨_, _, .drop push.item, rfl⟩
    · exact ⟨_, _, .idle, rfl⟩

theorem popLoop_section (block : Bool) (timeout : Option Rat) : ∃ after threads,
    Section state after ∧
      state.popLoop index block timeout start now = { after with threads } := by
  unfold State.popLoop
  split
  · rename_i item rest front
    exact ⟨_, _, .popleft item rest front, rfl⟩
  · rename_i empty
    split
    · rename_i closed
      exact ⟨_, _, .refusePop block timeout _ empty fun _ _ => closed, rfl⟩
    · split
      · rename_i nonBlocking
        refine ⟨_, _, .refusePop block timeout .emptyNonBlocking empty ?_, rfl⟩
        intro blocking
        simp [blocking] at nonBlocking
      · split
        · rename_i late
          refine ⟨_, _, .refusePop block timeout .timedOut empty ?_, rfl⟩
          intro _ forever
          simp [forever, expired] at late
        · exact ⟨_, _, .idle, rfl⟩

theorem step_section {event : Event α} (stepped : state.step event = some next) :
    ∃ after threads, Section state after ∧ next = { after with threads } := by
  cases event with
  | call command =>
      cases stepped
      exact ⟨_, _, .idle, rfl⟩
  | enter index start now =>
      simp only [State.step, State.enter] at stepped
      split at stepped
      · split at stepped
        · cases stepped
          exact ⟨_, _, .refusePush _, rfl⟩
        · cases stepped
          exact pushLoop_section _
      · cases stepped
        exact popLoop_section _ _
      · cases stepped
        exact ⟨_, _, .takeItems _, rfl⟩
      · cases stepped
        exact ⟨_, _, .close, rfl⟩
      · cases stepped
  | resume index now =>
      simp only [State.step, State.resume] at stepped
      split at stepped
      · split at stepped
        · cases stepped
          exact pushLoop_section _
        · cases stepped
      · split at stepped
        · cases stepped
          exact popLoop_section _ _
        · cases stepped
      · cases stepped

end CyreneReactor.Runtime.StreamBuffer
