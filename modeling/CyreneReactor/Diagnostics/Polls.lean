import CyreneReactor.Diagnostics.Discipline
import CyreneReactor.Interaction.Obeys

namespace CyreneReactor.Diagnostics

open Interaction DiagnosticsService

/-! What a poll does after what it was answered: what it appends and stores comes from
the one page it was sent.
-/

/-- The page an answered request brought. -/
def replied? : Answered diagnosticsSignature → Option Members
  | ⟨Op.request _ _ _ _, reply⟩ =>
      match readDiagnostics reply with
      | .ok (some page) => some page
      | _ => none
  | _ => none

def Replied (past : Past diagnosticsSignature) (page : Members) : Prop :=
  ∃ entry ∈ past, replied? entry = some page

def appendedFor (id : Uuid) : Answered diagnosticsSignature → Bool
  | ⟨Op.appendDeploymentDiagnostics target documents, _⟩ => target == id && !documents.isEmpty
  | _ => false

/-- Where the writes of a poll come from. -/
def pollRule (id : Uuid) (past : Past diagnosticsSignature) : Op → Prop
  | .appendDeploymentDiagnostics target documents =>
      target = id ∧ documents ≠ [] ∧
        ((∀ page, Replied past page → pageRecords page = []) →
          ∃ page, Replied past page ∧ pageDegraded page = true)
  | .setRuntimeDiagnosticsCursor target sequence =>
      target = id ∧ ∃ page, Replied past page ∧ pageNext page = some sequence
  | _ => True

/-- Whoever was told of lost output has appended something. -/
def Reported (id : Uuid) (past : Past diagnosticsSignature) : Prop :=
  ∀ page, Replied past page → pageDegraded page = true → past.any (appendedFor id) = true

/-- A deployment is found under its own id. -/
def truthful : (op : Op) → op.Answer → Prop
  | .getDeployment id, found => ∀ deployment, found = some deployment → deployment.id = id
  | _, _ => True

variable {service : DiagnosticsService} {id : Uuid} {past : Past diagnosticsSignature}
  {page : Members} {α : Type}

def Polls (id : Uuid) (program : Diagnosing α) (post : Except Failure α →
    Past diagnosticsSignature → Prop) (past : Past diagnosticsSignature) : Prop :=
  program.run.Obeys (pollRule id) truthful post past

theorem replied_append {entry : Answered diagnosticsSignature} :
    Replied (past ++ [entry]) page ↔ Replied past page ∨ replied? entry = some page := by
  simp [Replied, or_and_right, exists_or]

/-- The pages so far are these. -/
def Pages (past : Past diagnosticsSignature) (pages : List Members) : Prop :=
  ∀ page, Replied past page ↔ page ∈ pages

theorem Pages.silent {pages : List Members} (known : Pages past pages)
    (entry : Answered diagnosticsSignature) (silent : replied? entry = none) :
    Pages (past ++ [entry]) pages := by
  intro other
  rw [replied_append, silent]
  simpa using known other

theorem Pages.reported (known : Pages past []) : Reported id past :=
  fun page found => absurd ((known page).mp found) List.not_mem_nil

theorem Reported.append {entry : Answered diagnosticsSignature} (reported : Reported id past)
    (silent : replied? entry = none) : Reported id (past ++ [entry]) := by
  intro page found degraded
  rw [replied_append, silent] at found
  have earlier := reported page (by simpa using found) degraded
  rw [List.any_append, earlier, Bool.true_or]

/-- The documents of a page are none exactly when it has no record and lost nothing. -/
theorem pageDocuments_polls (known : Pages past [page]) :
    Polls id (service.pageDocuments id page) (fun outcome past => ∃ documents,
      outcome = .ok documents ∧ Pages past [page] ∧
        (documents = [] ↔ pageRecords page = [] ∧ pageDegraded page = false)) past := by
  unfold DiagnosticsService.pageDocuments
  cases degraded : pageDegraded page with
  | true =>
      apply Fallible.obeys_call trivial
      intro now _
      exact ⟨_, rfl, known.silent _ rfl, by simp⟩
  | false => exact ⟨_, rfl, known, by simp [runtimeDocuments]⟩

theorem appendDocuments_polls {documents : List Members} (known : Pages past [page])
    (shape : documents = [] ↔ pageRecords page = [] ∧ pageDegraded page = false) :
    Polls id (appendDocuments id documents) (fun outcome past =>
      outcome = .ok () ∧ Pages past [page] ∧ Reported id past) past := by
  cases documents with
  | nil =>
      refine ⟨rfl, known, ?_⟩
      intro other found degraded
      obtain rfl := List.mem_singleton.mp ((known other).mp found)
      rw [(shape.mp rfl).2] at degraded
      cases degraded
  | cons document rest =>
      refine ⟨⟨rfl, List.cons_ne_nil _ _, ?_⟩, ?_⟩
      · intro empty
        have here : Replied past page := (known page).mpr (List.mem_singleton.mpr rfl)
        refine ⟨page, here, ?_⟩
        cases degraded : pageDegraded page with
        | true => rfl
        | false => cases shape.mpr ⟨empty page here, degraded⟩
      · intro answer _
        refine ⟨rfl, known.silent _ rfl, fun _ _ _ => ?_⟩
        simp [appendedFor]

theorem saveCursor_polls (known : Pages past [page]) (reported : Reported id past) :
    Polls id (saveCursor id page) (fun _ past => Reported id past) past := by
  unfold saveCursor
  cases next : pageNext page with
  | none => exact reported
  | some sequence =>
      apply Fallible.obeys_call
      · exact ⟨rfl, page, (known page).mpr (List.mem_singleton.mpr rfl), next⟩
      · intro saved _
        exact reported.append rfl

theorem persistPage_polls (known : Pages past [page]) :
    Polls id (service.persistPage id page) (fun _ past => Reported id past) past := by
  apply Fallible.obeys_bind
  apply (pageDocuments_polls known).mono
  rintro _ past ⟨documents, rfl, known, shape⟩
  apply Fallible.obeys_bind
  apply (appendDocuments_polls known shape).mono
  rintro _ past ⟨rfl, known, reported⟩
  apply Fallible.obeys_bind
  apply (saveCursor_polls known reported).mono
  intro outcome past reported
  cases outcome with
  | ok saved => exact reported
  | error raised => exact reported

theorem harvestFrom_polls {engine : Engine} {executionRef : String} (known : Pages past []) :
    Polls id (service.harvestFrom engine id executionRef) (fun _ past => Reported id past) past := by
  apply Fallible.obeys_call trivial
  intro cursor _
  apply Fallible.obeys_call trivial
  intro reply _
  have asked := known.silent ⟨Op.runtimeDiagnosticsCursor id, cursor⟩ rfl
  cases read : readDiagnostics reply with
  | error failure =>
      have silent : replied? ⟨Op.request engine executionRef cursor 500, reply⟩ = none := by
        simp only [replied?, read]
      exact (asked.silent _ silent).reported
  | ok page =>
      cases page with
      | none =>
          have silent : replied? ⟨Op.request engine executionRef cursor 500, reply⟩ = none := by
            simp only [replied?, read]
          exact (asked.silent _ silent).reported
      | some page =>
          have sent : replied? ⟨Op.request engine executionRef cursor 500, reply⟩ = some page := by
            simp only [replied?, read]
          apply persistPage_polls
          intro other
          rw [replied_append, sent, asked other]
          simp [eq_comm]

theorem harvest_polls {deployment : Deployment} (known : Pages past []) :
    Polls deployment.id (service.harvestRuntimeDiagnostics deployment)
      (fun _ past => Reported deployment.id past) past := by
  apply Fallible.obeys_call trivial
  intro executionRef _
  have known := known.silent ⟨Op.getExecutionRef deployment.id, executionRef⟩ rfl
  cases executionRef with
  | none => exact known.reported
  | some executionRef =>
      apply Fallible.obeys_ofExcept
      · exact fun _ _ => known.reported
      · intro engine _
        split
        · exact harvestFrom_polls known
        · exact known.reported

theorem readPage_polls {deployment : Deployment} {afterSequence limit : Int} {degraded : Bool}
    (reported : Reported id past) :
    Polls id (service.readPage deployment id afterSequence limit degraded)
      (fun _ past => Reported id past) past := by
  apply Fallible.obeys_call trivial
  intro listed _
  have silent : replied? (⟨Op.listDeploymentDiagnostics id afterSequence limit, listed⟩ :
      Answered diagnosticsSignature) = none := rfl
  have reported := reported.append silent
  apply Fallible.obeys_ofExcept fun _ _ => reported
  intro documents _
  apply Fallible.obeys_ofExcept fun _ _ => reported
  intro records _
  cases degraded with
  | true => exact reported
  | false => exact Fallible.obeys_call trivial fun lost _ => reported.append rfl

/-- A whole poll. -/
theorem deploymentDiagnostics_polls (afterSequence limit : Int) :
    Polls id (service.deploymentDiagnostics id afterSequence limit)
      (fun _ past => Reported id past) [] := by
  have none : Pages [] [] := by
    intro page
    simp [Replied]
  unfold deploymentDiagnostics
  split
  · exact none.reported
  · apply Fallible.obeys_call trivial
    intro found named
    have known := none.silent ⟨Op.getDeployment id, found⟩ rfl
    cases found with
    | none => exact known.reported
    | some deployment =>
        obtain rfl : deployment.id = id := named deployment rfl
        apply Fallible.obeys_bind
        apply (harvest_polls known).mono
        intro outcome past reported
        cases outcome with
        | ok degraded => exact readPage_polls reported
        | error raised => exact reported

end CyreneReactor.Diagnostics
