import CyreneReactor.Diagnostics.Service
import CyreneReactor.Interaction.LockFree

namespace CyreneReactor.Diagnostics

open Interaction

/-! What a request may do next depends on what it has done itself.

Nobody else adds to the events of a request, so they are all it has to remember from
one call to the next.
-/

namespace Event

/-- The cursor a page was asked for, and the page, when the binding sent one. -/
def fetched? : Event → Option (Int × Members)
  | ⟨_, .request _ _ cursor _, reply⟩ =>
      match readDiagnostics reply with
      | .ok (some page) => some (cursor, page)
      | _ => none
  | _ => none

def requests : Event → Bool
  | ⟨_, .request _ _ _ _, _⟩ => true
  | _ => false

def appends : Event → Bool
  | ⟨_, .appendDeploymentDiagnostics _ _, _⟩ => true
  | _ => false

def saves : Event → Bool
  | ⟨_, .setRuntimeDiagnosticsCursor _ _, _⟩ => true
  | _ => false

/-- What an event appended to the rows of a deployment. -/
def documents (id : Uuid) : Event → List Members
  | ⟨_, .appendDeploymentDiagnostics target documents, _⟩ => if target = id then documents else []
  | _ => []

/-- The stored documents an event read. -/
def listed? : Event → Option (Uuid × List Members)
  | ⟨_, .listDeploymentDiagnostics id _ _, listed⟩ =>
      match (listed : Except Failure (List Members)) with
      | .ok documents => some (id, documents)
      | .error _ => none
  | _ => none

end Event

/-- The events of one caller. -/
def own (caller : Caller Command) (journal : List Event) : List Event :=
  journal.filter fun event => event.caller = caller

/-- Everything that was appended for a deployment, in order. -/
def appended (id : Uuid) (journal : List Event) : List Members :=
  journal.flatMap (Event.documents id)

def Fetched (mine : List Event) (cursor : Int) (page : Members) : Prop :=
  ∃ event ∈ mine, event.fetched? = some (cursor, page)

section Events

variable {caller : Caller Command} {journal : List Event} {event : Event}

theorem own_append_own (mine : event.caller = caller) :
    own caller (journal ++ [event]) = own caller journal ++ [event] := by
  simp [own, List.filter_append, mine]

theorem own_append_other (other : event.caller ≠ caller) :
    own caller (journal ++ [event]) = own caller journal := by
  simp [own, List.filter_append, other]

theorem own_grown (caller : Caller Command) (journal : List Event) (event : Event) :
    own caller journal <+: own caller (journal ++ [event]) := by
  by_cases mine : event.caller = caller
  · rw [own_append_own mine]
    exact List.prefix_append _ _
  · exact own_append_other mine ▸ List.prefix_rfl

theorem Fetched.mono {mine later : List Event} {cursor : Int} {page : Members}
    (fetched : Fetched mine cursor page) (grown : mine <+: later) : Fetched later cursor page := by
  obtain ⟨event, member, shape⟩ := fetched
  exact ⟨event, grown.subset member, shape⟩

theorem appended_append (id : Uuid) :
    appended id (journal ++ [event]) = appended id journal ++ event.documents id := by
  simp [appended]

end Events

theorem Performs.own_after {service : DiagnosticsService} {environment : Environment}
    {caller : Caller Command} {op : Op} {state next : State} {answer : op.Answer}
    (performs : Performs service environment caller op state answer next) :
    own caller next.journal = own caller state.journal ++ [⟨caller, op, answer⟩] := by
  have mine : Event.caller ⟨caller, op, answer⟩ = caller := rfl
  rw [performs.journal, own_append_own mine]

variable (service : DiagnosticsService)

/-- Where the documents of an append come from. -/
def Source (caller : Caller Command) (mine : List Event) (documents : List Members) : Prop :=
  match caller.command with
  | .record id message level code => ∃ now, documents = [productDocument id now message level code]
  | .diagnostics id _ _ =>
      ∃ cursor page, Fetched mine cursor page ∧
        (documents = service.runtimeDocuments id page ∨
          ∃ now, documents = service.runtimeDocuments id page ++ [degradedDocument id now])

/-- Nothing but reads so far. -/
def Fresh (mine : List Event) : Prop :=
  ∀ event ∈ mine, event.requests = false ∧ event.appends = false ∧ event.saves = false

/-- A page is asked for once, appended once, and its cursor is saved after that. -/
def Permits (caller : Caller Command) (mine : List Event) : Op → Prop
  | .request _ _ _ _ => Fresh mine
  | .appendDeploymentDiagnostics id documents =>
      id = caller.command.id ∧ Source service caller mine documents ∧
        ∀ event ∈ mine, event.appends = false ∧ event.saves = false
  | .setRuntimeDiagnosticsCursor id sequence =>
      (∃ afterSequence limit, caller.command = .diagnostics id afterSequence limit) ∧
        (∀ event ∈ mine, event.saves = false) ∧
        ∃ cursor page, Fetched mine cursor page ∧ pageNext page = some sequence ∧
          (service.runtimeDocuments id page ≠ [] → ∃ event ∈ mine, event.appends = true)
  | _ => True

def discipline (environment : Environment) : Discipline (service.system environment) where
  guarantee caller _ state next :=
    ∃ op answer, Performs service environment caller op state answer next ∧
      Permits service caller (own caller (State.journal state)) op
  lockInvariant _ := True
  fresh index state := ∀ event ∈ State.journal state, event.caller.index ≠ index
  lockInvariant_of_unheld := fun _ _ => trivial
  fresh_of_guarantee := by
    rintro index caller held state next fresh ⟨op, answer, performs, _⟩ different event member
    rw [performs.journal] at member
    rcases List.mem_append.mp member with earlier | last
    · exact fresh event earlier
    · rw [List.mem_singleton.mp last]
      exact different

/-- The reasons a request for a page may raise. -/
inductive Excuse (caller : Caller Command) (mine : List Event) : Failure → Prop where
  | negative {id : Uuid} {afterSequence limit : Int}
      (command : caller.command = .diagnostics id afterSequence limit) (below : afterSequence < 0) :
      Excuse caller mine (.raised (.product DiagnosticsService.sequenceInvalid))
  | missing {id : Uuid} (absent : ⟨caller, .getDeployment id, none⟩ ∈ mine) :
      Excuse caller mine (.raised (.product DiagnosticsService.deploymentNotFound))
  | unbound {bindingId : String} {raised : Raised}
      (unknown : service.reactor.engineFor bindingId = .error raised) :
      Excuse caller mine (.raised raised)
  | binding {engine : Engine} {executionRef : String} {cursor : Int} {limit : Nat} {raised : Raised}
      (replied : ⟨caller, .request engine executionRef cursor limit, .error raised⟩ ∈ mine) :
      Excuse caller mine (.raised raised)
  | cursor {cursor sequence : Int} {page : Members} (fetched : Fetched mine cursor page)
      (next : pageNext page = some sequence) (beyond : storable sequence = false) :
      Excuse caller mine .overflowError
  | afterSequence {id : Uuid} {afterSequence limit : Int}
      (command : caller.command = .diagnostics id afterSequence limit)
      (beyond : storable afterSequence = false) : Excuse caller mine .overflowError
  | invalid {event : Event} {id : Uuid} {documents : List Members} (member : event ∈ mine)
      (listed : event.listed? = some (id, documents))
      (refused : ∃ document ∈ documents,
        DiagnosticRecord.modelValidate service.printer document = none) :
      Excuse caller mine .validationError

def Finished (caller : Caller Command) (result : Except Failure (Option DiagnosticsPage))
    (state : State) : Prop :=
  ∀ failure, result = .error failure → Excuse service caller (own caller state.journal) failure

end CyreneReactor.Diagnostics
