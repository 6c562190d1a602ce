import CyreneReactor.Engine
import CyreneReactor.Interaction.Pool
import CyreneReactor.Store

namespace CyreneReactor

open Interaction

/-! What `ReactorService` runs on: clock, fresh ids, the store, the engines and
the activity tracker.  The state is the database together with a journal of
what was done under the command lock, in the order it was done.
-/

inductive TaskState where
  | accepted
  | running
  | dispatching
  | canceling
deriving DecidableEq, Repr

/-- A report to the activity tracker, by task id. -/
inductive ActivityCall where
  | admission (taskId : String) (state : TaskState)
  | transition (taskId : String) (state : TaskState)
  | complete (taskId : String)
deriving DecidableEq, Repr

def ActivityCall.task : ActivityCall → String
  | admission task _ | transition task _ | complete task => task

inductive Op where
  | utcNow
  | uuid4
  | store (op : StoreOp)
  | port (engine : Engine) (call : PortCall)
  | activity (call : ActivityCall)

namespace Op

def Answer : Op → Type
  | utcNow => Datetime
  | uuid4 => Uuid
  | store op => op.Answer
  | port _ call => call.Answer
  | activity _ => Unit

/-- Reading the clock or a row leaves no trace. -/
def recorded : Op → Bool
  | utcNow => false
  | store op => op.writes
  | uuid4 | port _ _ | activity _ => true

def effect (database : Database) : Op → Database
  | store op => (op.run database).2
  | utcNow | uuid4 | port _ _ | activity _ => database

end Op

def productSignature : Signature := ⟨Op, Op.Answer⟩

inductive Command where
  | create (request : CreateDeploymentRequest) (idempotencyKey : Option String)
  | get (deploymentId : Uuid)
  | stop (deploymentId : Uuid)
  | restart (deploymentId : Uuid) (nodeRef : NodeRef) (resourceVersion : Nat)

structure Event where
  caller : Caller Command
  op : Op
  answer : op.Answer

structure State where
  database : Database
  journal : List Event

def State.initial : State := ⟨.empty, []⟩

/-- The id an event drew, when it drew one. -/
def Event.issued? : Event → Option Uuid
  | ⟨_, .uuid4, id⟩ => some id
  | _ => none

def issued (journal : List Event) : List Uuid := journal.filterMap Event.issued?

/-- The answers the world may give: a drawn id is new, the store computes, and
clock, engines and tracker are free. -/
def Answers (state : State) : (op : Op) → op.Answer → Prop
  | .uuid4, id => id ∉ issued state.journal
  | .store op, answer => answer = (op.run state.database).1
  | .utcNow, _ | .port _ _, _ | .activity _, _ => True

def State.after (state : State) (caller : Caller Command) (held : Bool) (op : Op)
    (answer : op.Answer) : State where
  database := op.effect state.database
  journal :=
    if held && op.recorded then state.journal ++ [⟨caller, op, answer⟩] else state.journal

theorem State.after_unrecorded {state : State} {caller : Caller Command} {held : Bool} {op : Op}
    {answer : op.Answer} (unrecorded : op.recorded = false) :
    state.after caller held op answer = state := by
  have untouched : op.effect state.database = state.database := by
    cases op with
    | store op => exact StoreOp.run_of_not_writes unrecorded state.database
    | utcNow | uuid4 | port | activity => rfl
  simp only [State.after, untouched, unrecorded, Bool.and_false, Bool.false_eq_true, if_false]

theorem State.after_recorded {state : State} {caller : Caller Command} {op : Op}
    {answer : op.Answer} (recorded : op.recorded = true) :
    (state.after caller true op answer).journal = state.journal ++ [⟨caller, op, answer⟩] := by
  simp only [State.after, recorded, Bool.and_true, if_true]

/-- A restriction of what the world may answer to an operation on a database. -/
abbrev Environment := (database : Database) → (op : Op) → op.Answer → Prop

/-- Any answer to any call. -/
def Environment.unrestricted : Environment := fun _ _ _ => True

/-- One call: its answer, and the state it leaves. -/
structure Performs (environment : Environment) (caller : Caller Command) (held : Bool) (op : Op)
    (state : State) (answer : op.Answer) (next : State) : Prop where
  admitted : environment state.database op answer
  answers : Answers state op answer
  next_eq : next = state.after caller held op answer

end CyreneReactor
