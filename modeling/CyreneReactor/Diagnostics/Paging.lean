import CyreneReactor.Data.Paging
import CyreneReactor.Diagnostics.Service
import CyreneReactor.Interaction.Answers

namespace CyreneReactor.Diagnostics

open Interaction DiagnosticsService

/-! Reading the stored diagnostics page by page, while no record arrives. -/

/-- The records of a deployment, in the order they were stored. -/
def persisted (printer : Printer) (database : Database) (id : Uuid) : List DiagnosticRecord :=
  (documentsOf database id).filterMap (DiagnosticRecord.modelValidate printer)

def remaining (printer : Printer) (database : Database) (id : Uuid) (afterSequence : Int) :
    List DiagnosticRecord :=
  (persisted printer database id).filter fun record => decide (afterSequence < record.sequence.val)

variable (service : DiagnosticsService) (state : State) (id : Uuid)

/-- What a call answers when it appends nothing and nothing was appended before. -/
def Quiet (op : Op) (answer : op.Answer) : Prop :=
  match op with
  | .appendDeploymentDiagnostics _ _ => False
  | op => ∃ cursors, Answers service { state with cursors } op answer

/-- The page a request may get. -/
def Served (afterSequence limit : Int) (page : DiagnosticsPage) : Prop :=
  (service.deploymentDiagnostics id afterSequence limit).run.Yields (Quiet service state) (.ok page)

/-- The item limit and the byte bound. -/
def Fits (limit : Int) (records : List DiagnosticRecord) : Prop :=
  (records.length : Int) ≤ limit ∧ dumpsRecords records ≤ diagnosticsPageMaxBytes

/-- Requests one after the other, each after the `nextSequence` of the one before. -/
def Following (limit : Int) : Int → List DiagnosticsPage → Prop
  | _, [] => True
  | afterSequence, page :: rest =>
      Served service state id afterSequence limit page ∧ Following limit page.nextSequence rest

/-- Each page is as long as it can be, and the pages are all there is. -/
structure Paged (limit : Int) : Prop where
  increasing : (persisted service.printer state.database id).Pairwise fun earlier later =>
    earlier.sequence.val < later.sequence.val
  answered : ∀ afterSequence, 0 ≤ afterSequence → storable afterSequence = true →
    ∃ page, Served service state id afterSequence limit page
  longest : ∀ afterSequence page, Served service state id afterSequence limit page →
    Paging.Longest (Fits limit) page.items
      (remaining service.printer state.database id afterSequence)
  progress : ∀ afterSequence page, Served service state id afterSequence limit page →
    page.items = [] → remaining service.printer state.database id afterSequence = []
  ordered : ∀ pages, Following service state id limit 0 pages →
    pages.flatMap DiagnosticsPage.items <+: persisted service.printer state.database id
  complete : ∀ pages, Following service state id limit 0 pages →
    (persisted service.printer state.database id).length ≤ pages.length →
    pages.flatMap DiagnosticsPage.items = persisted service.printer state.database id

end CyreneReactor.Diagnostics
