import CyreneReactor.Runtime.StreamBuffer

namespace CyreneReactor.Runtime.StreamBuffer

open Interaction

/-! `StreamBuffer` is a bounded FIFO in every run, and a closed one stays as it is
unless a push comes back from its wait and finds room.
-/

def Entry.accepted {α : Type} : Entry α → List α
  | pushed item => [item]
  | _ => []

def Entry.delivered {α : Type} : Entry α → List α
  | popped item => [item]
  | drained items => items
  | _ => []

/-- The items whose push returned `True`, in the order of the pushes. -/
def accepted {α : Type} (log : List (Entry α)) : List α := log.flatMap Entry.accepted

/-- The items `pop` and `drain` returned. -/
def delivered {α : Type} (log : List (Entry α)) : List α := log.flatMap Entry.delivered

def Entry.isClosed {α : Type} : Entry α → Bool
  | closed => true
  | _ => false

def Entry.isPushed {α : Type} : Entry α → Bool
  | pushed _ => true
  | _ => false

variable {α : Type} {maxSize : Nat} {state after next : State α} {log : List (Entry α)}

/-- What holds in every state of every run. -/
structure Fifo (state : State α) : Prop where
  order : delivered state.log ++ state.queue = accepted state.log
  bounded : state.queue.length ≤ state.maxSize
  closed : state.closed = true ↔ ∃ entry ∈ state.log, entry.isClosed = true
  counted : state.pushed = (accepted state.log).length ∧
    state.popped = (delivered state.log).length
  waits : ∀ before error later, state.log = before ++ .popRefused true none error :: later →
    (∃ entry ∈ before, entry.isClosed = true) ∧ delivered before = accepted before

/-- No item is added after the buffer was closed. -/
def RespectsClose (log : List (Entry α)) : Prop :=
  log.Pairwise fun earlier later => earlier.isClosed = true → later.isPushed = false

theorem split_last {entry here : Entry α} {before later : List (Entry α)}
    (same : log ++ [entry] = before ++ here :: later) :
    (∃ initial, log = before ++ here :: initial) ∨ (before = log ∧ here = entry) := by
  rcases List.eq_nil_or_concat later with rfl | ⟨initial, last, rfl⟩
  · obtain ⟨rfl, single⟩ := List.append_inj' same rfl
    cases single
    exact .inr ⟨rfl, rfl⟩
  · rw [List.concat_eq_append, ← List.cons_append, ← List.append_assoc] at same
    exact .inl ⟨initial, (List.append_inj' same rfl).1⟩

@[simp] theorem accepted_append (entry : Entry α) :
    accepted (log ++ [entry]) = accepted log ++ entry.accepted := by
  simp [accepted]

@[simp] theorem delivered_append (entry : Entry α) :
    delivered (log ++ [entry]) = delivered log ++ entry.delivered := by
  simp [delivered]

theorem fifo_new : Fifo (State.new maxSize : State α) where
  order := rfl
  bounded := Nat.zero_le _
  closed := by simp [State.new]
  counted := ⟨rfl, rfl⟩
  waits before error later same := by
    have empty : ([] : List (Entry α)) = before ++ .popRefused true none error :: later := same
    simp at empty

/-- A refused pop that is none of the blocking ones without timeout leaves the earlier
refusals as they were. -/
theorem Fifo.waits_append (fifo : Fifo state) {entry : Entry α}
    (last : ∀ error, entry = .popRefused true none error →
      (∃ entry ∈ state.log, entry.isClosed = true) ∧ delivered state.log = accepted state.log) :
    ∀ before error later, state.log ++ [entry] = before ++ .popRefused true none error :: later →
      (∃ entry ∈ before, entry.isClosed = true) ∧ delivered before = accepted before := by
  intro before error later same
  rcases split_last same with ⟨initial, earlier⟩ | ⟨rfl, here⟩
  · exact fifo.waits before error initial earlier
  · exact last error here.symm

theorem Fifo.order_section (fifo : Fifo state) (done : Section state after) :
    delivered after.log ++ after.queue = accepted after.log := by
  have order := fifo.order
  cases done with
  | idle => exact order
  | append item room =>
      simp only [State.append, accepted_append, delivered_append, Entry.accepted, Entry.delivered,
        List.append_nil, ← order, List.append_assoc]
  | popleft item rest front =>
      simp only [State.popleft, accepted_append, delivered_append, Entry.accepted, Entry.delivered,
        List.append_nil, ← order, front, List.tail_cons, List.append_assoc, List.singleton_append]
  | takeItems count =>
      have split : state.queue.take count ++ state.queue.drop (state.queue.take count).length =
          state.queue := by
        rw [List.length_take, ← List.drop_eq_drop_min, List.take_append_drop]
      simp only [State.takeItems, accepted_append, delivered_append, Entry.accepted,
        Entry.delivered, List.append_nil, ← order, List.append_assoc, split]
  | drop item | refusePush item | refusePop block timeout error empty closed | close =>
      simpa [State.drop, State.refusePush, State.refusePop, State.close, Entry.accepted,
        Entry.delivered] using order

theorem Fifo.bounded_section (fifo : Fifo state) (done : Section state after) :
    after.queue.length ≤ after.maxSize := by
  have bounded := fifo.bounded
  cases done with
  | append item room =>
      simp only [State.append, List.length_append, List.length_singleton]
      omega
  | popleft item rest front =>
      simp only [State.popleft, List.length_tail]
      omega
  | takeItems count =>
      simp only [State.takeItems, List.length_drop]
      omega
  | idle | drop item | refusePush item | refusePop block timeout error empty closed | close =>
      exact bounded

theorem Fifo.closed_section (fifo : Fifo state) (done : Section state after) :
    after.closed = true ↔ ∃ entry ∈ after.log, entry.isClosed = true := by
  have closed := fifo.closed
  cases done with
  | idle => exact closed
  | close => simp [State.close, Entry.isClosed]
  | append item room | drop item | refusePush item | popleft item rest front
  | refusePop block timeout error empty waited | takeItems count =>
      simpa [State.append, State.drop, State.refusePush, State.popleft, State.refusePop,
        State.takeItems, Entry.isClosed, or_and_right, exists_or] using closed

theorem Fifo.counted_section (fifo : Fifo state) (done : Section state after) :
    after.pushed = (accepted after.log).length ∧ after.popped = (delivered after.log).length := by
  obtain ⟨pushed, popped⟩ := fifo.counted
  cases done with
  | idle => exact ⟨pushed, popped⟩
  | append item room | drop item | refusePush item | popleft item rest front
  | refusePop block timeout error empty closed | takeItems count | close =>
      simp [State.append, State.drop, State.refusePush, State.popleft, State.refusePop,
        State.takeItems, State.close, Entry.accepted, Entry.delivered, pushed, popped]

theorem Fifo.section (fifo : Fifo state) (done : Section state after) : Fifo after where
  order := fifo.order_section done
  bounded := fifo.bounded_section done
  closed := fifo.closed_section done
  counted := fifo.counted_section done
  waits := by
    cases done with
    | idle => exact fifo.waits
    | refusePop block timeout error empty closed =>
        apply fifo.waits_append
        intro raised same
        cases same
        have order := fifo.order
        rw [empty, List.append_nil] at order
        exact ⟨fifo.closed.mp (closed rfl rfl), order⟩
    | append item room | drop item | refusePush item | popleft item rest front
    | takeItems count | close => exact fifo.waits_append fun error same => by cases same

theorem Fifo.threads (fifo : Fifo state) (threads : List (Thread α)) :
    Fifo { state with threads } := ⟨fifo.order, fifo.bounded, fifo.closed, fifo.counted, fifo.waits⟩

theorem Fifo.step (fifo : Fifo state) {event : Event α} (stepped : state.step event = some next) :
    Fifo next := by
  obtain ⟨after, threads, done, rfl⟩ := step_section stepped
  exact (fifo.section done).threads threads

theorem fifo_of_runs {allowed : State α → Event α → Prop}
    (runs : machine.Runs allowed (State.new maxSize) state) : Fifo state :=
  runs.invariant Fifo (fun _ _ _ fifo _ stepped => fifo.step stepped) fifo_new

/-- A push that comes back from its wait and finds room finds an open buffer. -/
def resumesOpen (state : State α) : Event α → Bool
  | .resume index _ =>
      match state.threads[index]? with
      | some (.pushWaiting push _ notified) =>
          !((notified || push.timeout.isSome) && decide (state.queue.length < state.maxSize) &&
            state.closed)
      | _ => true
  | _ => true

def ResumesOpen (state : State α) (event : Event α) : Prop := resumesOpen state event = true

/-- An item is added to a closed buffer. -/
def AddsLate (state next : State α) : Prop :=
  state.closed = true ∧ ∃ item, next.log = state.log ++ [.pushed item]

theorem Section.logged (done : Section state after) :
    after.log = state.log ∨ ∃ entry, after.log = state.log ++ [entry] := by
  cases done with
  | idle => exact .inl rfl
  | append item room | drop item | refusePush item | popleft item rest front
  | refusePop block timeout error empty waited | takeItems count | close => exact .inr ⟨_, rfl⟩

/-- A log that respects the close still does, unless the step adds an item late. -/
theorem respectsClose_step (fifo : Fifo state) (respects : RespectsClose state.log)
    {event : Event α} (stepped : state.step event = some next) :
    RespectsClose next.log ↔ ¬ AddsLate state next := by
  obtain ⟨after, threads, done, rfl⟩ := step_section stepped
  unfold AddsLate
  rcases done.logged with same | ⟨entry, grown⟩
  · simp [same, respects]
  · have pushes : (∃ item, entry = .pushed item) ↔ entry.isPushed = true := by
      cases entry <;> simp [Entry.isPushed]
    have late : (∃ item, after.log = state.log ++ [.pushed item]) ↔ entry.isPushed = true := by
      simp only [grown, List.append_cancel_left_eq, List.cons.injEq, and_true, pushes]
    rw [late, grown, RespectsClose, List.pairwise_append, fifo.closed]
    constructor
    · intro parts both
      obtain ⟨⟨earlier, member, closes⟩, pushed⟩ := both
      rw [parts.2.2 earlier member entry (List.mem_singleton.mpr rfl) closes] at pushed
      cases pushed
    · intro onTime
      refine ⟨respects, List.pairwise_singleton _ _, ?_⟩
      intro earlier member last here closes
      obtain rfl := List.mem_singleton.mp here
      rw [← Bool.not_eq_true]
      exact fun pushed => onTime ⟨⟨earlier, member, closes⟩, pushed⟩

theorem pushLoop_log (index : Nat) (push : Push α) (start now : Rat) :
    (∃ item, (state.pushLoop index push start now).log = state.log ++ [.pushed item]) ↔
      state.queue.length < state.maxSize := by
  unfold State.pushLoop
  split
  · rename_i room
    exact ⟨fun _ => room, fun _ => ⟨push.item, rfl⟩⟩
  · rename_i full
    constructor
    · intro added
      obtain ⟨item, added⟩ := added
      split at added
      · simp [State.setThread, State.drop] at added
      · simp [State.setThread] at added
    · exact fun room => absurd room full

theorem popLoop_log (index : Nat) (block : Bool) (timeout : Option Rat) (start now : Rat) :
    ¬ ∃ item, (state.popLoop index block timeout start now).log = state.log ++ [.pushed item] := by
  intro added
  obtain ⟨item, added⟩ := added
  unfold State.popLoop at added
  split at added
  · simp [State.setThread, State.notifyAll, State.popleft] at added
  · split at added
    · simp [State.setThread, State.refusePop] at added
    · split at added
      · simp [State.setThread, State.refusePop] at added
      · split at added
        · simp [State.setThread, State.refusePop] at added
        · simp [State.setThread] at added

/-- The pushes that come late are those that come back from a wait. -/
theorem addsLate_iff {event : Event α} (stepped : state.step event = some next) :
    AddsLate state next ↔ ¬ ResumesOpen state event := by
  cases event with
  | call command =>
      cases stepped
      simp [AddsLate, ResumesOpen, resumesOpen]
  | enter index start now =>
      simp only [ResumesOpen, resumesOpen, not_true_eq_false, iff_false]
      intro late
      obtain ⟨closed, added⟩ := late
      simp only [State.step, State.enter] at stepped
      split at stepped
      · rw [if_pos closed] at stepped
        cases stepped
        simp [State.setThread, State.refusePush] at added
      · cases stepped
        exact popLoop_log _ _ _ _ _ added
      · cases stepped
        simp [State.setThread, State.notifyAll, State.takeItems] at added
      · cases stepped
        simp [State.setThread, State.notifyAll, State.close] at added
      · cases stepped
  | resume index now =>
      simp only [State.step, State.resume] at stepped
      unfold ResumesOpen resumesOpen
      split at stepped
      · rename_i push start notified here
        split at stepped
        · rename_i woken
          cases stepped
          simp only [here, AddsLate, pushLoop_log]
          simp [woken, and_comm]
        · cases stepped
      · split at stepped
        · rename_i here _
          cases stepped
          simp [here, AddsLate, popLoop_log]
        · cases stepped
      · cases stepped

/-- Every run is a bounded FIFO whose blocking pops wait for an item or the close.
Nothing is added after the close as long as no push that comes back from its wait finds
room in a closed buffer, and the first one that does breaks it. -/
theorem stream_buffer_respects_close (maxSize : Nat) (state : State α) :
    (machine.Runs (fun _ _ => True) (State.new maxSize) state → Fifo state) ∧
    (machine.Runs ResumesOpen (State.new maxSize) state → RespectsClose state.log ∧
      ∀ event next, state.step event = some next →
        (RespectsClose next.log ↔ ResumesOpen state event)) := by
  refine ⟨fifo_of_runs, fun runs => ?_⟩
  have respects : RespectsClose state.log := by
    induction runs with
    | refl => exact .nil
    | tail before step ih =>
        obtain ⟨event, open', stepped⟩ := step
        apply (respectsClose_step (fifo_of_runs before) ih stepped).mpr
        rw [addsLate_iff stepped]
        exact not_not_intro open'
  refine ⟨respects, fun event next stepped => ?_⟩
  rw [respectsClose_step (fifo_of_runs runs) respects stepped, addsLate_iff stepped, not_not]

/-- A push waits for room in a buffer of one, which is emptied before the close. -/
def closedAfterWaiting : List (Event Nat) :=
  [.call (.push 1 true none), .enter 0 0 0, .call (.push 2 true none), .enter 1 0 0,
    .call (.pop true none), .enter 2 0 0, .resume 1 0, .call .close, .enter 3 0 0,
    .call (.drain none), .enter 4 0 0]

theorem stream_buffer_respects_close_drained :
    ∃ state : State Nat, machine.Runs ResumesOpen (State.new 1) state ∧
      RespectsClose state.log ∧ delivered state.log = [1, 2] := by
  have played : (machine.play resumesOpen (State.new 1) closedAfterWaiting).map State.log =
      some [.pushed 1, .popped 1, .pushed 2, .closed, .drained [2]] := by rfl
  obtain ⟨state, reached, log⟩ := Option.map_eq_some_iff.mp played
  have runs : machine.Runs ResumesOpen (State.new 1) state :=
    Machine.runs_of_play (fun _ _ admitted => admitted) reached
  refine ⟨state, runs, ((stream_buffer_respects_close 1 state).2 runs).1, ?_⟩
  rw [log]
  rfl

/-- A push waits for room in a buffer of one, which is closed and then emptied. -/
def closedWhileWaiting : List (Event Nat) :=
  [.call (.push 1 true none), .enter 0 0 0, .call (.push 2 true none), .enter 1 0 0,
    .call .close, .enter 2 0 0, .resume 1 0, .call (.pop true none), .enter 3 0 0, .resume 1 0]

theorem push_after_close :
    ¬ ∀ (maxSize : Nat) (state : State Nat),
      machine.Runs (fun _ _ => True) (State.new maxSize) state → RespectsClose state.log := by
  intro closes
  have played : (machine.play (fun _ _ => true) (State.new 1) closedWhileWaiting).map State.log =
      some [.pushed 1, .closed, .popped 1, .pushed 2] := by rfl
  obtain ⟨state, reached, log⟩ := Option.map_eq_some_iff.mp played
  have respects := closes 1 state (Machine.runs_of_play (fun _ _ _ => trivial) reached)
  rw [log, RespectsClose] at respects
  simp [Entry.isClosed, Entry.isPushed] at respects

end CyreneReactor.Runtime.StreamBuffer
