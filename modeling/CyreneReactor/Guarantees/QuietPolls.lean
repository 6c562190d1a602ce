import CyreneReactor.Diagnostics.Polls
import CyreneReactor.Diagnostics.Script

namespace CyreneReactor.Diagnostics

open Interaction DiagnosticsService

/-! Polling a deployment whose runtime has nothing new to report.

A poll that finds no record and the cursor it knows has one document left to append:
the one that says that the runtime lost output.  It is appended at every such reply.
-/

/-- The reply has no new record, and no cursor but the stored one. -/
def QuietPage (cursor : Int) (page : Members) : Prop :=
  pageRecords page = [] ∧ ∀ next, pageNext page = some next → next = cursor

/-- Everybody polls, and every reply is quiet. -/
structure Environment.Quiet (environment : Environment) : Prop where
  polls : ∀ state caller op answer, environment state caller op answer →
    ∃ id afterSequence limit, caller.command = .diagnostics id afterSequence limit
  replies : ∀ state caller engine executionRef cursor limit reply page,
    environment state caller (.request engine executionRef cursor limit) reply →
    readDiagnostics reply = .ok (some page) →
    QuietPage (runtimeDiagnosticsCursor state.cursors caller.command.id) page

/-- A reply that reports lost output. -/
def Event.degraded (event : Event) : Bool :=
  (replied? ⟨event.op, event.answer⟩).any pageDegraded

/-- The persisted records and every stored cursor are as they were. -/
structure Unchanged (start state : State) : Prop where
  rows : ∀ row, row ∈ state.database.deploymentDiagnostics.rows ↔
    row ∈ start.database.deploymentDiagnostics.rows
  cursors : ∀ id, runtimeDiagnosticsCursor state.cursors id =
    runtimeDiagnosticsCursor start.cursors id

/-- Every poll has ended, with a page or with an error. -/
def Ended {system : System} (pool : Pool system) : Prop :=
  ∀ thread ∈ pool.threads, ∃ result, thread.program = .pure result

section Runs

variable {service : DiagnosticsService} {environment : Environment} {start : State}
  {pool next : Pool (service.system environment)}

def told (caller : Caller Command) (state : State) : Past diagnosticsSignature :=
  (own caller state.journal).map fun event => ⟨event.op, event.answer⟩

def callerRule (caller : Caller Command) (past : Past diagnosticsSignature) (op : Op) : Prop :=
  ∀ id afterSequence limit, caller.command = .diagnostics id afterSequence limit →
    pollRule id past op

def callerPost (caller : Caller Command) (_ : Except Failure (Option DiagnosticsPage))
    (past : Past diagnosticsSignature) : Prop :=
  ∀ id afterSequence limit, caller.command = .diagnostics id afterSequence limit → Reported id past

section Step

variable {caller : Caller Command} {op : Op} {state after : State} {answer : op.Answer}

theorem Performs.told_own (performs : Performs service environment caller op state answer after) :
    told caller after = told caller state ++ [⟨op, answer⟩] := by
  rw [told, performs.own_after, List.map_append]
  rfl

theorem Performs.told_other (performs : Performs service environment caller op state answer after)
    {other : Caller Command} (different : other ≠ caller) : told other after = told other state := by
  have others : own other after.journal = own other state.journal := by
    rw [performs.journal]
    exact own_append_other (Ne.symm different)
  rw [told, others]
  rfl

theorem Performs.truthful (performs : Performs service environment caller op state answer after) :
    truthful op answer := by
  cases op with
  | getDeployment id => exact performs.answers
  | _ => trivial

end Step

theorem tells : @Tells (service.system environment) truthful told where
  own performs := Performs.told_own performs
  others performs different := Performs.told_other performs different
  admitted performs := Performs.truthful performs

theorem bodies_obey (caller : Caller Command) :
    (service.body caller.command).run.Obeys (callerRule caller) truthful (callerPost caller) [] := by
  obtain ⟨index, command⟩ := caller
  cases command with
  | diagnostics id afterSequence limit =>
      refine @Program.Obeys.weaken _ _ (pollRule id) _ _ _ _ _ ?_ ?_
      · apply Fallible.obeys_bind
        have polls : Polls id (service.deploymentDiagnostics id afterSequence limit)
            (fun _ past => Reported id past) [] := deploymentDiagnostics_polls afterSequence limit
        apply polls.mono
        intro outcome past reported
        cases outcome with
        | ok page =>
            intro target _ _ same
            cases same
            exact reported
        | error raised =>
            intro target _ _ same
            cases same
            exact reported
      · intro past op rule target _ _ same
        cases same
        exact rule
  | record id message level code =>
      -- the rule is about polls only
      apply Program.Obeys.anything
      · intro past op target _ _ same
        cases same
      · intro value past target _ _ same
        cases same

theorem mem_told {event : Event} {state : State} (member : event ∈ state.journal) :
    (⟨event.op, event.answer⟩ : Answered diagnosticsSignature) ∈ told event.caller state :=
  List.mem_map.mpr ⟨event, List.mem_filter.mpr ⟨member, by simp⟩, rfl⟩

theorem of_mem_told {caller : Caller Command} {entry : Answered diagnosticsSignature} {state : State}
    (member : entry ∈ told caller state) :
    ∃ event ∈ state.journal, event.caller = caller ∧ entry = ⟨event.op, event.answer⟩ := by
  obtain ⟨event, mine, rfl⟩ := List.mem_map.mp member
  obtain ⟨journaled, same⟩ := List.mem_filter.mp mine
  exact ⟨event, journaled, by simpa using same, rfl⟩

/-- What quiet polls keep, and what the appended rows tell of them. -/
structure Kept (start state : State) : Prop where
  polls : ∀ event ∈ state.journal, ∃ id afterSequence limit,
    event.caller.command = .diagnostics id afterSequence limit
  cursors : ∀ id, runtimeDiagnosticsCursor state.cursors id =
    runtimeDiagnosticsCursor start.cursors id
  quiet : ∀ caller page, Replied (told caller state) page →
    QuietPage (runtimeDiagnosticsCursor start.cursors caller.command.id) page
  database : (∀ event ∈ state.journal, event.degraded = false) → state.database = start.database
  grows : ∀ id, start.database.lastDiagnosticSequence id ≤ state.database.lastDiagnosticSequence id
  grown : ∀ caller id, (told caller state).any (appendedFor id) = true →
    start.database.lastDiagnosticSequence id < state.database.lastDiagnosticSequence id

variable {caller : Caller Command} {op : Op} {state after : State} {answer : op.Answer}

theorem Kept.step (kept : Kept start state) (quiet : environment.Quiet)
    (performs : Performs service environment caller op state answer after)
    (rule : callerRule caller (told caller state) op) : Kept start after := by
  obtain ⟨id, afterSequence, limit, command⟩ := quiet.polls _ _ _ _ performs.admitted
  have rule := rule id afterSequence limit command
  have named : caller.command.id = id := by rw [command]; rfl
  have grows : ∀ other, state.database.lastDiagnosticSequence other ≤
      after.database.lastDiagnosticSequence other := by
    intro other
    rw [performs.database]
    cases op with
    | appendDeploymentDiagnostics target documents =>
        by_cases same : other = target
        · subst same
          exact Nat.le_of_lt (last_lt_append rule.2.1)
        · exact Nat.le_of_eq (last_append_other same).symm
    | _ => exact Nat.le_refl _
  constructor
  · intro event member
    rw [performs.journal] at member
    rcases List.mem_append.mp member with earlier | last
    · exact kept.polls event earlier
    · exact List.mem_singleton.mp last ▸ ⟨id, afterSequence, limit, command⟩
  · intro other
    rw [performs.cursors, ← kept.cursors other]
    cases op with
    | setRuntimeDiagnosticsCursor target sequence =>
        obtain ⟨rfl, page, replied, next⟩ := rule
        simp only [Op.cursors]
        split
        · by_cases same : other = target
          · subst same
            rw [cursor_set, (kept.quiet caller page replied).2 sequence next, named, kept.cursors]
          · exact cursor_set_other _ _ same
        · rfl
    | _ => rfl
  · intro other page replied
    by_cases mine : other = caller
    · subst mine
      rw [performs.told_own, replied_append] at replied
      rcases replied with earlier | sent
      · exact kept.quiet other page earlier
      · cases op with
        | request engine executionRef cursor limit =>
            rw [← kept.cursors]
            apply quiet.replies _ _ _ _ _ _ _ _ performs.admitted
            simp only [replied?] at sent
            split at sent
            · cases sent
              assumption
            · cases sent
        | _ => cases sent
    · rw [performs.told_other mine] at replied
      exact kept.quiet other page replied
  · intro none
    rw [performs.journal] at none
    have before := kept.database fun event member => none event (List.mem_append_left _ member)
    rw [performs.database]
    cases op with
    | appendDeploymentDiagnostics target documents =>
        obtain ⟨-, -, degraded⟩ := rule
        obtain ⟨page, ⟨entry, mine, sent⟩, lost⟩ :=
          degraded fun page replied => (kept.quiet caller page replied).1
        obtain ⟨event, journaled, -, rfl⟩ := of_mem_told mine
        have silent := none event (List.mem_append_left _ journaled)
        simp [Event.degraded, sent, lost] at silent
    | _ => exact before
  · exact fun other => Nat.le_trans (kept.grows other) (grows other)
  · intro other owner some
    by_cases mine : other = caller
    · subst mine
      rw [performs.told_own, List.any_append, Bool.or_eq_true] at some
      rcases some with earlier | last
      · exact Nat.lt_of_lt_of_le (kept.grown other owner earlier) (grows owner)
      · rw [performs.database]
        cases op with
        | appendDeploymentDiagnostics target documents =>
            obtain ⟨rfl, -⟩ : target = owner ∧ documents ≠ [] := by simpa [appendedFor] using last
            exact Nat.lt_of_le_of_lt (kept.grows target) (last_lt_append rule.2.1)
        | _ => cases last
    · rw [performs.told_other mine] at some
      exact Nat.lt_of_lt_of_le (kept.grown other owner some) (grows owner)

theorem kept_opened : Kept start { start with journal := [] } where
  polls _ member := by cases member
  cursors _ := rfl
  quiet caller page replied := by
    obtain ⟨entry, member, _⟩ := replied
    cases member
  database _ := rfl
  grows _ := Nat.le_refl _
  grown caller id some := by cases some

variable (unwritten : start.journal = [])

include unwritten

theorem told_nil (caller : Caller Command) : told caller start = [] := by
  simp [told, own, unwritten]

theorem obeying (reached : Reachable start pool) :
    Obeying callerRule truthful callerPost told pool :=
  obeying_of_reachable tells bodies_obey (told_nil unwritten) reached

theorem kept (quiet : environment.Quiet) (reached : Reachable start pool) :
    Kept start pool.state := by
  induction reached with
  | refl =>
      have opened : Kept start { start with journal := [] } := kept_opened
      rwa [← unwritten] at opened
  | tail before step ih =>
      rcases (obeying unwritten before).moves step with same | ⟨caller, _, op, answer, does, rule⟩
      · exact same ▸ ih
      · exact Kept.step ih quiet does rule

/-- Any number of quiet polls, interleaved in any way, leave the persisted records
and the cursors as they were, if and only if no reply reports lost output: it makes no
difference that the loss was recorded before. -/
theorem quiet_polls_change_nothing_iff (quiet : environment.Quiet) (reached : Reachable start pool) :
    ((∀ event ∈ State.journal pool.state, event.degraded = false) → Unchanged start pool.state) ∧
    (Ended pool → (Unchanged start pool.state ↔
      ∀ event ∈ State.journal pool.state, event.degraded = false)) := by
  have kept := kept unwritten quiet reached
  have forth : (∀ event ∈ State.journal pool.state, event.degraded = false) →
      Unchanged start pool.state := by
    intro none
    have same := kept.database none
    exact ⟨fun row => by rw [same], kept.cursors⟩
  refine ⟨forth, fun ended => ⟨fun unchanged event member => ?_, forth⟩⟩
  by_contra degraded
  rw [Bool.not_eq_false] at degraded
  have member' := mem_told member
  have obeying := obeying unwritten reached
  obtain ⟨thread, here, command⟩ := obeying.started event.caller (List.ne_nil_of_mem member')
  obtain ⟨result, finished⟩ := ended thread (List.mem_of_getElem? here)
  have post := obeying.obeys here
  rw [finished] at post
  have mine : thread.caller event.caller.index = event.caller := by
    rw [Thread.caller, command]
    rfl
  rw [mine] at post
  obtain ⟨id, afterSequence, limit, polls⟩ := kept.polls event member
  obtain ⟨page, sent, lost⟩ := (Option.any_eq_true _ _).mp degraded
  have reported := post id afterSequence limit polls page ⟨_, member', sent⟩ lost
  exact Nat.lt_irrefl _ (last_congr unchanged.rows ▸ kept.grown event.caller id reported)

end Runs

/-- The loss is recorded. -/
def LossRecorded (database : Database) (id : Uuid) : Prop :=
  ∃ document ∈ documentsOf database id,
    JsonValue.member? document "code" = some (.str "REACTOR.DIAGNOSTICS.DEGRADED")

namespace Sample

/-- A runtime without news, which may have lost output. -/
def idling (degraded : Bool) : Binding := fun _ _ cursor =>
  .ok [("items", .arr []), ("nextSequence", .int cursor), ("diagnosticsDegraded", .bool degraded)]

/-- Polls only, asking from the stored cursor on. -/
def polling : Binding.Occurs := fun state caller op =>
  (match caller.command with
    | .diagnostics _ _ _ => true
    | .record _ _ _ _ => false) &&
  match op with
  | .request _ _ cursor _ => cursor == runtimeDiagnosticsCursor state.cursors caller.command.id
  | _ => true

theorem idling_quiet (degraded : Bool) : ((idling degraded).world diagnostics polling).Quiet where
  polls state caller op answer occurred := by
    obtain ⟨index, command⟩ := caller
    cases command with
    | diagnostics id afterSequence limit => exact ⟨id, afterSequence, limit, rfl⟩
    | record id message level code => cases occurred.1
  replies state caller engine executionRef cursor limit reply page occurred read := by
    obtain ⟨occurs, replied⟩ := occurred
    have stored : cursor = runtimeDiagnosticsCursor state.cursors caller.command.id := by
      simpa [polling] using (Bool.and_eq_true_iff.mp occurs).2
    cases replied
    cases read
    refine ⟨rfl, fun next same => ?_⟩
    cases same
    exact stored

/-- A store that has recorded the loss for a deployment. -/
def recordedLoss : State where
  database := Database.empty.appendDeploymentDiagnostics ⟨0⟩ [degradedDocument ⟨0⟩ Datetime.epoch]
  cursors := .empty
  logs _ := []
  journal := []

/-- Two polls of that deployment, up to the cursor they store. -/
def repolled (degraded : Bool) :
    Pool (diagnostics.system ((idling degraded).world diagnostics polling)) :=
  ((idling degraded).script diagnostics polling).play (Pool.initial recordedLoss)
    [.start (Binding.ask ⟨0⟩), .start (Binding.ask ⟨0⟩), .run 0 7, .run 1 7]

theorem repolled_reached (degraded : Bool) : Reachable recordedLoss (repolled degraded) :=
  ((idling degraded).script diagnostics polling).reaches_of_play _ _

end Sample

theorem quiet_polls_change_nothing_iff_idle :
    Unchanged Sample.recordedLoss (Sample.repolled false).state :=
  (quiet_polls_change_nothing_iff rfl (Sample.idling_quiet false)
    (Sample.repolled_reached false)).1 (by decide +kernel)

/-- A loss that is recorded is recorded again at every poll. -/
theorem quiet_polls_append :
    ¬ ∀ (service : DiagnosticsService) (environment : Environment) (start : State)
      (pool : Pool (service.system environment)), start.journal = [] → environment.Quiet →
      Reachable start pool → (∀ event ∈ State.journal pool.state, event.degraded = true →
        LossRecorded start.database event.caller.command.id) → Unchanged start pool.state := by
  intro idempotent
  have unchanged := idempotent _ _ _ _ rfl (Sample.idling_quiet true) (Sample.repolled_reached true)
    (by
      have polled : ∀ event ∈ State.journal (Sample.repolled true).state,
          event.caller.command.id = ⟨0⟩ := by decide +kernel
      intro event member _
      rw [polled event member]
      exact ⟨_, List.mem_singleton.mpr rfl, rfl⟩)
  have same := @last_congr ⟨0⟩ _ _ unchanged.rows
  have grown : Sample.recordedLoss.database.lastDiagnosticSequence ⟨0⟩ <
      (State.database (Sample.repolled true).state).lastDiagnosticSequence ⟨0⟩ := by decide +kernel
  omega

end CyreneReactor.Diagnostics
