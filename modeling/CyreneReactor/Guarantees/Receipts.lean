import CyreneReactor.Guarantees.OperationLedger

namespace CyreneReactor.PackageRuntime

open Interaction

/-! Receipts: what a completed operation proves, and which receipts are kept. -/

/-- What a row of the binding shows of its operation.  Its status and its receipt
are the ones of this row, and a completed row has both. -/
structure Evidence (owner : Owner) (row : Operation) : Prop where
  packageId : row.packageId = packageId
  operation : row.operation = "activate"
  runtimeStatus : ∀ status, row.runtimeStatus = some status →
    owner.validateActual status row.installationId = .ok ()
  receipt : ∀ document, row.receipt = some document →
    ReceiptMatches owner row.requestId row.installationId document
  completed : row.phase = .completed → row.runtimeStatus.isSome = true ∧ row.receipt.isSome = true

def Evidenced (owner : Owner) (ledger : Ledger) : Prop :=
  ∀ row ∈ ledger.rows, row.bindingId = owner.bindingId → Evidence owner row

/-- A receipt that an activation stores, on a row that takes it, is its own. -/
def Environment.OwnReceipts (owner : Owner) (environment : Environment) : Prop :=
  ∀ {state : State} {caller : Caller Command} {requestId installationId : String}
    {runtimeStatus receipt : Payload} {answer : Except Failure Unit} (row : Operation),
    environment state caller
      (.ledger (.commitPackageRuntimeOutcome requestId runtimeStatus receipt)) answer →
    caller.command = .activate requestId installationId →
    state.ledger.packageRuntimeOperation requestId = some row → row.phase.pending = true →
    runtimeStatus.encodable = true → receipt.encodable = true →
    ReceiptMatches owner requestId installationId receipt.document

section Evidence

variable {owner : Owner} {environment : Environment} {caller : Caller Command} {held : Bool}
  {op : Op} {state next : State} {answer : op.Answer} {ledger : Ledger}

/-- What one permitted transaction makes of the evidence of a row. -/
theorem Evidence.rewrites {transaction : LedgerOp} {answer : transaction.Answer}
    (own : environment.OwnReceipts owner) (reconciles : environment.ReconcilesWithStatus)
    (performs : Performs environment caller (.ledger transaction) state answer next)
    (permits : Permits owner environment caller held state (.ledger transaction))
    {requestId : String} {old new : Operation} {now : LocalTime}
    (found : state.ledger.packageRuntimeOperation requestId = some old)
    (rewrites : LedgerOp.Rewrites now requestId old transaction new)
    (evidence : Evidence owner old) : Evidence owner new := by
  have key := (Ledger.mem_of_lookup found).2
  cases rewrites with
  | kept => exact evidence
  | marked intended =>
      exact ⟨evidence.packageId, evidence.operation, evidence.runtimeStatus, evidence.receipt,
        fun done => by cases done⟩
  | receiptPersisted receipt unreceipted =>
      obtain ⟨_, installationId, _, installed, matched⟩ := permits
      refine ⟨evidence.packageId, evidence.operation, evidence.runtimeStatus, ?_,
        fun done => by cases done⟩
      rintro document ⟨⟩
      rw [key, (installed old found).2]
      exact matched
  | outcomeCommitted runtimeStatus receipt pending encodable =>
      obtain ⟨installationId, installed, accepted, stored⟩ := permits
      refine ⟨evidence.packageId, evidence.operation, ?_, ?_, fun done => by cases done⟩
      · rintro status ⟨⟩
        rw [(installed old found).2]
        exact accepted
      · rintro document ⟨⟩
        rw [key, (installed old found).2]
        rcases stored with ⟨_, command, _⟩ | ⟨_, matched⟩
        · exact own old performs.admitted command found pending encodable.1 encodable.2
        · exact matched
  | completed completable =>
      refine ⟨evidence.packageId, evidence.operation, evidence.runtimeStatus, evidence.receipt,
        fun _ => ⟨?_, (Operation.completable_iff.mp completable).2⟩⟩
      have received := (Operation.completable_iff.mp completable).2
      rcases permits with ⟨_, _, withStatus⟩ | ⟨_, withStatus⟩
      · exact withStatus old found received
      · exact withStatus reconciles old found received

/-- What one permitted step makes of the ledger. -/
theorem Evidenced.step (own : environment.OwnReceipts owner)
    (reconciles : environment.ReconcilesWithStatus)
    (performs : Performs environment caller op state answer next)
    (permits : Permits owner environment caller held state op)
    (evidenced : Evidenced owner state.ledger) : Evidenced owner next.ledger := by
  intro new member binding
  have foundNew := Ledger.lookup_of_mem member
  cases known : state.ledger.packageRuntimeOperation new.requestId with
  | some old =>
      obtain ⟨other, foundOther, change⟩ := performs.present known
      rw [foundNew, Option.some.injEq] at foundOther
      subst foundOther
      have oldMember := (Ledger.mem_of_lookup known).1
      rcases change with rfl | ⟨now, transaction, rfl, rewrites⟩
      · exact evidenced _ oldMember binding
      · have same := rewrites.advances.bindingId
        exact Evidence.rewrites own reconciles performs permits known rewrites
          (evidenced old oldMember (same ▸ binding))
  | none =>
      rcases performs.absent known with absent | ⟨_, _, _, now, rfl, created⟩
      · rw [foundNew] at absent
        cases absent
      · have here := created.here
        obtain ⟨_, _, _, package, _⟩ := permits
        rw [foundNew, Option.some.injEq] at here
        rw [here]
        exact ⟨package, rfl, fun _ stored => (by cases stored), fun _ stored => (by cases stored),
          fun done => by cases done⟩

theorem evidenced_of_reachable (receipted : ledger.WellReceipted)
    (evidenced : Evidenced owner ledger) (own : environment.OwnReceipts owner)
    (reconciles : environment.ReconcilesWithStatus) {pool : Pool (owner.system environment)}
    (reached : Reachable (State.opened ledger) pool) :
    Evidenced owner (State.ledger pool.state) := by
  induction reached with
  | refl => exact evidenced
  | tail before step ih =>
      rcases (Lawful.of_reachable receipted before).permitted step with
        same | ⟨_, _, _, _, performs, permits⟩
      · rw [same]
        exact ih
      · exact ih.step own reconciles performs permits

end Evidence

/-- A row that is complete, with the evidence of what it did. -/
def Proven (owner : Owner) (row : Operation) : Prop :=
  row.packageId = packageId ∧ row.operation = "activate" ∧
    (∃ status, row.runtimeStatus = some status ∧
      owner.validateActual status row.installationId = .ok ()) ∧
    ∃ document, row.receipt = some document ∧
      ReceiptMatches owner row.requestId row.installationId document

theorem Evidence.proven {owner : Owner} {row : Operation} (evidence : Evidence owner row)
    (completed : row.phase = .completed) : Proven owner row := by
  obtain ⟨hasStatus, hasReceipt⟩ := evidence.completed completed
  obtain ⟨status, storedStatus⟩ := Option.isSome_iff_exists.mp hasStatus
  obtain ⟨document, storedReceipt⟩ := Option.isSome_iff_exists.mp hasReceipt
  exact ⟨evidence.packageId, evidence.operation,
    ⟨status, storedStatus, evidence.runtimeStatus status storedStatus⟩,
    ⟨document, storedReceipt, evidence.receipt document storedReceipt⟩⟩

/-- The request a command reports on, when it is one that completes operations. -/
def Command.completes? : Command → Option String
  | .activate requestId _ | .reconcile requestId => some requestId
  | .status => none

/-- Completed rows are proven, and success is reported of completed rows only. -/
structure CompletionProven (owner : Owner) (environment : Environment)
    (pool : Pool (owner.system environment)) : Prop where
  rows : ∀ row ∈ (State.ledger pool.state).rows, row.bindingId = owner.bindingId →
    row.phase = .completed → Proven owner row
  successes : ∀ (index : Nat) {command : Command} {depth : Nat} {success : PublicState}
      {requestId : String},
    pool.threads[index]? = some ⟨command, depth, .pure (.ok success)⟩ →
    command.completes? = some requestId →
    ∃ row, (State.ledger pool.state).packageRuntimeOperation requestId = some row ∧
      row.phase = .completed ∧ Proven owner row

theorem completion_proven (owner : Owner) (environment : Environment) {ledger : Ledger}
    (receipted : ledger.WellReceipted) (evidenced : Evidenced owner ledger)
    (own : environment.OwnReceipts owner) (reconciles : environment.ReconcilesWithStatus)
    {pool : Pool (owner.system environment)} (reached : Reachable (State.opened ledger) pool) :
    CompletionProven owner environment pool := by
  have rows := evidenced_of_reachable receipted evidenced own reconciles reached
  have lawful := Lawful.of_reachable receipted reached
  refine ⟨fun row member binding completed => (rows row member binding).proven completed, ?_⟩
  intro index command depth success requestId found completes
  obtain ⟨since, relied, _, finish⟩ := lawful.sound.verified found
  have finish : Finish owner environment ⟨index, command⟩ (.ok success) since := finish
  have completed : Completed owner requestId (State.ledger since) := by
    cases command with
    | activate target installationId =>
        cases completes
        exact finish.2 rfl
    | reconcile target =>
        cases completes
        exact finish rfl
    | status => cases completes
  have stays : Lasting owner environment ⟨index, command⟩ (decide (0 < depth))
      fun state => Completed owner requestId state.ledger := .of_grows Completed.grows
  obtain ⟨row, here, binding, phase⟩ := stays.stable.rely relied completed
  exact ⟨row, here, phase, (rows row (Ledger.mem_of_lookup here).1 binding).proven phase⟩

namespace Sample

/-- A reconciliation whose client returns without its callback, on a row that has
a receipt only. -/
def silent : List (Turn Command) :=
  [.start activation, .run 0 100, .start (.reconcile "request"), .run 1 100]

/-- The client hands the receipt of another request to `persist`. -/
def foreign : Client where
  activates := .calls intent fun _ =>
    .dispatch (.calls (.persist (some status) (receipt "another")) fun _ => .returns)
  reconciles := .returns
  accepts := true

end Sample

/-- Both ways to complete a row without its evidence. -/
theorem completion_unproven :
    (Reachable (State.opened .empty) (Sample.interrupted.play Sample.owner Sample.silent) ∧
      ¬ CompletionProven Sample.owner Sample.interrupted.world
        (Sample.interrupted.play Sample.owner Sample.silent)) ∧
    (Reachable (State.opened .empty)
        (Sample.foreign.play Sample.owner [.start Sample.activation, .run 0 100]) ∧
      ¬ CompletionProven Sample.owner Sample.foreign.world
        (Sample.foreign.play Sample.owner [.start Sample.activation, .run 0 100])) := by
  refine ⟨⟨Client.play_reached _ _ _, fun proven => ?_⟩, Client.play_reached _ _ _, fun proven => ?_⟩
  · obtain ⟨row, found, _, _, _, ⟨status, stored, _⟩, _⟩ := proven.successes 1 rfl rfl
    cases found
    cases stored
  · obtain ⟨row, found, _, _, _, _, ⟨document, stored, matched, _⟩⟩ := proven.successes 0 rfl rfl
    cases found
    cases stored
    cases matched

namespace Sample

/-- The activation ends with a receipt that waits, and the reconciliation hands over the status;
activations store their own receipts. -/
def honest : Client :=
  { interrupted with
    reconciles := reconciliation
    occurs := fun _ caller op =>
      match op, caller.command with
      | .ledger (.commitPackageRuntimeOutcome _ _ receipt), .activate requestId installationId =>
          reads receipt.document "request_id" requestId &&
            match object? receipt.document "scope" with
            | some scope => scopeMatches scope owner.bindingId installationId
            | none => false
      | _, _ => true }

theorem honest_ownReceipts : honest.world.OwnReceipts owner := by
  intro state caller requestId installationId runtimeStatus receipt answer row admitted command
    found pending statusEncodable receiptEncodable
  have checked := admitted.1
  simp only [honest, command, Bool.and_eq_true] at checked
  refine ⟨checked.1, ?_⟩
  cases scope : object? receipt.document "scope" with
  | none => simp [scope] at checked
  | some scope' => exact ⟨scope', rfl, by simpa [scope] using checked.2⟩

theorem honest_reconciles : honest.world.ReconcilesWithStatus := by
  intro state caller requestId receipt behaviour admitted command
  obtain rfl : behaviour = honest.reconciles := admitted.2
  refine .inl fun outcome refused => ?_
  cases outcome with
  | ok value => cases refused
  | error error => trivial

/-- An activation, its reconciliation, and a look at the state. -/
def reconciled : List (Turn Command) :=
  [.start activation, .run 0 100, .start (.reconcile "request"), .run 1 100, .start .status,
    .run 2 100]

end Sample

/-- The reconciliation completes the row. -/
theorem completion_proven_reconciled :
    CompletionProven Sample.owner Sample.honest.world
        (Sample.honest.play Sample.owner Sample.reconciled) ∧
      ((State.ledger (Sample.honest.play Sample.owner Sample.reconciled).state).rows.map
        Operation.phase) = [.completed] :=
  ⟨completion_proven Sample.owner Sample.honest.world (fun _ member => by cases member)
    (fun _ member => by cases member) Sample.honest_ownReceipts Sample.honest_reconciles
    (Sample.honest.play_reached Sample.owner Sample.reconciled), rfl⟩

/-- The row of an activation holds every receipt its client delivered. -/
def ReceiptsKept (owner : Owner) (environment : Environment)
    (pool : Pool (owner.system environment)) (index : Nat) (requestId installationId : String) :
    Prop :=
  ∀ document, Delivered owner ⟨index, .activate requestId installationId⟩ requestId installationId
      (State.journal pool.state) document →
    ∃ row, (State.ledger pool.state).packageRuntimeOperation requestId = some row ∧
      row.receipt = some document ∧ (row.phase = .receiptPending ∨ row.phase = .completed)

theorem receipts_kept (owner : Owner) (environment : Environment) {ledger : Ledger}
    (receipted : ledger.WellReceipted) {index : Nat} {requestId installationId : String}
    (retaining : environment.Retaining owner ⟨index, .activate requestId installationId⟩ requestId
      installationId)
    {pool : Pool (owner.system environment)} (reached : Reachable (State.opened ledger) pool)
    {depth : Nat} {result : Except Failure PublicState}
    (ended : pool.threads[index]? =
      some ⟨.activate requestId installationId, depth, .pure result⟩) :
    ReceiptsKept owner environment pool index requestId installationId := by
  have lawful := Lawful.of_reachable receipted reached
  obtain ⟨since, relied, _, finish⟩ := lawful.sound.verified ended
  have finish : Finish owner environment ⟨index, .activate requestId installationId⟩ result since :=
    finish
  have ends := Ends.stable.rely relied finish.1
  intro document delivered
  obtain ⟨row, found, receipt⟩ := ends.holds retaining document delivered
  refine ⟨row, found, receipt, (lawful.coherent.receipted row (Ledger.mem_of_lookup found).1).mp ?_⟩
  rw [receipt]
  rfl

namespace Sample

/-- A status query between the dispatch and the error that carries the receipt. -/
def overtaken : List (Turn Command) :=
  [.start activation, .run 0 7, .start .status, .run 1 100, .run 0 100]

end Sample

namespace Sample

/-- The interrupted client, in a world where it delivers one receipt, and its row
is still an intent when the handler reads it. -/
def unhurried : Client :=
  { interrupted with
    occurs := fun state caller op =>
      match op, caller.command with
      | _, .reconcile _ => false
      | .client move, _ =>
          match Event.delivery? owner "request" "installation" ⟨caller, .client move, ()⟩ with
          | none => true
          | some payload => payload.encodable &&
              !(state.journal.any fun event =>
                (event.delivery? owner "request" "installation").isSome)
      | .ledger (.packageRuntimeOperation requestId), _ =>
          ((lastOwn caller state.journal).all fun last =>
            (last.delivery? owner "request" "installation").isNone) ||
          (state.ledger.packageRuntimeOperation requestId).all fun row => row.phase == .intent
      | _, _ => true }

theorem unhurried_delivers {state : State} {op : Op} {answer : op.Answer} {payload : Payload}
    (admitted : unhurried.world state ⟨0, activation⟩ op answer)
    (delivers : Event.delivery? owner "request" "installation" ⟨⟨0, activation⟩, op, answer⟩ =
      some payload) :
    payload.encodable = true ∧ ∀ event ∈ state.journal,
      event.delivery? owner "request" "installation" = none := by
  have occurs := admitted.1
  cases op with
  | client move =>
      replace delivers : Event.delivery? owner "request" "installation"
        ⟨⟨0, activation⟩, .client move, ()⟩ = some payload := delivers
      simp only [unhurried, activation] at occurs delivers
      rw [delivers] at occurs
      simpa using occurs
  | ledger | activateAndPersist | reconcileBindingOperationAndPersist | bindingOperationReceipt =>
      cases delivers

theorem unhurried_retaining :
    unhurried.world.Retaining owner ⟨0, activation⟩ "request" "installation" where
  steps state op answer admitted := by
    refine ⟨fun payload _ delivers => (unhurried_delivers admitted delivers).1, ?_, ?_⟩
    · rintro payload document delivers ⟨earlier, event, later, journal, _, _, before⟩
      have none := (unhurried_delivers admitted delivers).2 event (by simp [journal])
      rw [none] at before
      cases before
    · intro row last payload read own delivers
      obtain ⟨occurs, rfl⟩ := admitted
      cases op with
      | ledger op =>
          cases op with
          | packageRuntimeOperation target =>
              replace read : (if target = "request" then
                state.ledger.packageRuntimeOperation target else none) = some row := read
              by_cases same : target = "request"
              · rw [if_pos same] at read
                replace own : lastOwn ⟨0, .activate "request" "installation"⟩ state.journal =
                  some last := own
                simp only [unhurried, activation] at occurs
                rw [own, read] at occurs
                simp only [Option.all_some, delivers, Option.isNone_some, Bool.false_or,
                  beq_iff_eq] at occurs
                exact .inl occurs
              · rw [if_neg same] at read
                cases read
          | _ => cases read
      | _ => cases read
  unreconciled state other op answer admitted command := by
    have occurs := admitted.1
    simp only [unhurried, command] at occurs
    cases occurs

end Sample

/-- The receipt of an error is saved when nobody looked in between. -/
theorem receipts_kept_unhurried :
    ReceiptsKept Sample.owner Sample.unhurried.world
      (Sample.unhurried.play Sample.owner [.start Sample.activation, .run 0 100]) 0
      "request" "installation" :=
  receipts_kept Sample.owner Sample.unhurried.world (fun _ member => by cases member)
    Sample.unhurried_retaining
    (Sample.unhurried.play_reached Sample.owner [.start Sample.activation, .run 0 100]) rfl

/-- The status query marks the row unknown, and the handler drops the receipt. -/
theorem receipt_dropped :
    Reachable (State.opened .empty) (Sample.interrupted.play Sample.owner Sample.overtaken) ∧
      ¬ ReceiptsKept Sample.owner Sample.interrupted.world
        (Sample.interrupted.play Sample.owner Sample.overtaken) 0 "request" "installation" := by
  refine ⟨Client.play_reached _ _ _, fun kept => ?_⟩
  let journal := (Sample.interrupted.play Sample.owner Sample.overtaken).state.journal
  have delivered : Delivered Sample.owner ⟨0, Sample.activation⟩ "request" "installation" journal
      (Sample.receipt "request").attributes :=
    ⟨journal.take 10, _, journal.drop 11, rfl,
      ⟨_, List.mem_of_getElem? (show (journal.take 10)[4]? = some _ from rfl), rfl, rfl⟩, rfl, rfl⟩
  obtain ⟨row, found, stored, _⟩ := kept _ delivered
  cases found
  cases stored

end CyreneReactor.PackageRuntime
