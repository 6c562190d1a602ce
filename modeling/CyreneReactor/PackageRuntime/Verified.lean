import CyreneReactor.PackageRuntime.Activation

namespace CyreneReactor.PackageRuntime

open Interaction Discipline

/-! Every entry point keeps the discipline.

The proofs follow the source statement by statement.  Where the client runs, they
go by induction on what it does.
-/

variable {owner : Owner} {environment : Environment} {caller : Caller Command} {held : Bool}
  {requestId installationId : String} {ready spent : Bool} {state : State} {α β : Type}

/-- Owner code, verified while other threads run. -/
abbrev Steady (owner : Owner) (environment : Environment) (caller : Caller Command) (held : Bool)
    (program : Owned α) (post : Except Failure α → State → Prop) (state : State) : Prop :=
  (discipline owner environment).LockFree caller held program.run post state

namespace Steady

variable {post : Except Failure β → State → Prop}

theorem mono {program : Owned α} {strong weak : Except Failure α → State → Prop}
    (verified : Steady owner environment caller held program strong state)
    (implies : ∀ outcome after, strong outcome after → weak outcome after) :
    Steady owner environment caller held program weak state :=
  LockFree.mono verified implies

theorem call {op : Op} {holds : State → Prop} {continuation : op.Answer → Owned β}
    (stable : (discipline owner environment).Stable caller held holds) (here : holds state)
    (step : ∀ before answer next, holds before → Performs environment caller op before answer next →
      Permits owner environment caller held before op ∧
        Steady owner environment caller held (continuation answer) post next) :
    Steady owner environment caller held (PackageRuntime.call op >>= continuation) post state :=
  LockFree.call_bind stable here fun before answer next holds does =>
    ⟨⟨op, answer, does, (step before answer next holds does).1⟩,
      (step before answer next holds does).2⟩

/-- A transaction whose error is raised. -/
theorem raised {program : Owned (Except Failure α)} {continuation : α → Owned β}
    (verified : Steady owner environment caller held
      (program >>= fun outcome => Fallible.ofExcept outcome >>= continuation) post state) :
    Steady owner environment caller held (raising program >>= continuation) post state := by
  rw [raising, bind_assoc]
  exact verified

theorem raised_last {program : Owned (Except Failure α)} {post : Except Failure α → State → Prop}
    (verified : Steady owner environment caller held
      (program >>= fun outcome => Fallible.ofExcept outcome >>= pure) post state) :
    Steady owner environment caller held (raising program) post state := by
  rw [← bind_pure (raising program)]
  exact raised verified

theorem last {program : Owned α} {post : Except Failure α → State → Prop}
    (verified : Steady owner environment caller held (program >>= pure) post state) :
    Steady owner environment caller held program post state := by
  rw [← bind_pure program]
  exact verified

end Steady

/-- Idle transactions are always permitted. -/
theorem Idle.permits {op : LedgerOp} (idle : Idle (.ledger op)) :
    Permits owner environment caller held state (.ledger op) := by
  cases op with
  | packageRuntimeOperation | pendingRequest | latestRequest | markPackageRuntimeUnknown =>
      exact trivial
  | createPackageRuntimeIntent | persistPackageRuntimeReceipt | commitPackageRuntimeOutcome
  | completePackageRuntimeOperation => exact idle.elim

/-- What idle transactions of this thread and any steps of the others keep. -/
structure Lasting (owner : Owner) (environment : Environment) (caller : Caller Command)
    (held : Bool) (holds : State → Prop) : Prop where
  stable : (discipline owner environment).Stable caller held holds
  idle : ∀ {op : LedgerOp} {before next : State} {answer : op.Answer}, Idle (.ledger op) →
    holds before → Performs environment caller (.ledger op) before answer next → holds next

theorem Lasting.and {left right : State → Prop}
    (first : Lasting owner environment caller held left)
    (second : Lasting owner environment caller held right) :
    Lasting owner environment caller held fun state => left state ∧ right state where
  stable := first.stable.and second.stable
  idle := fun idle known performs =>
    ⟨first.idle idle known.1 performs, second.idle idle known.2 performs⟩

/-- What every transaction keeps of the ledger. -/
theorem Lasting.of_grows {keeps : Ledger → Prop}
    (grown : ∀ {before after : Ledger}, before.Grows after → keeps before → keeps after) :
    Lasting owner environment caller held fun state => keeps state.ledger where
  stable := by
    rintro state next ⟨_, _, _, _, _, _, performs, _⟩ known
    exact grown performs.grows known
  idle := fun _ known performs => grown performs.grows known

/-- A later state of this row is stored. -/
def Recorded (requestId : String) (record : Operation) (ledger : Ledger) : Prop :=
  ∃ row, ledger.packageRuntimeOperation requestId = some row ∧ record.Advances row

theorem Recorded.grows {record : Operation} {before after : Ledger}
    (grows : before.Grows after) (recorded : Recorded requestId record before) :
    Recorded requestId record after := by
  obtain ⟨old, found, advances⟩ := recorded
  obtain ⟨new, foundNew, further⟩ := grows requestId old found
  exact ⟨new, foundNew, advances.trans further⟩

/-- A runtime status is stored for the request. -/
def Statused (requestId : String) (ledger : Ledger) : Prop :=
  ∃ row, ledger.packageRuntimeOperation requestId = some row ∧ row.runtimeStatus.isSome = true

theorem Statused.grows {before after : Ledger} (grows : before.Grows after)
    (statused : Statused requestId before) : Statused requestId after := by
  obtain ⟨old, found, stored⟩ := statused
  obtain ⟨new, foundNew, advances⟩ := grows requestId old found
  exact ⟨new, foundNew, advances.runtimeStatus stored⟩

theorem Statused.withStatus {ledger : Ledger} (statused : Statused requestId ledger) :
    WithStatus requestId ledger := by
  intro row found _
  obtain ⟨known, here, stored⟩ := statused
  rw [found, Option.some.injEq] at here
  exact here ▸ stored

section Status

variable {holds : State → Prop} {post : Except Failure β → State → Prop}

theorem Lasting.transact {op : LedgerOp} {continuation : op.Answer → Owned β}
    (lasting : Lasting owner environment caller held holds) (idle : Idle (.ledger op))
    (here : holds state)
    (step : ∀ before answer next, holds before → holds next →
      Performs environment caller (.ledger op) before answer next →
        Steady owner environment caller held (continuation answer) post next) :
    Steady owner environment caller held (transact op >>= continuation) post state :=
  Steady.call lasting.stable here fun before answer next known performs =>
    ⟨idle.permits, step before answer next known (lasting.idle idle known performs) performs⟩

/-- A lookup of the pending operation, and what it means that there is none. -/
theorem Lasting.pending {continuation : Option Operation → Owned β}
    (lasting : Lasting owner environment caller held holds) (here : holds state)
    (step : ∀ found next, holds next →
      (found = none → ∀ row ∈ next.ledger.rows, row.bindingId = owner.bindingId →
        row.phase.pending = false) →
      Steady owner environment caller held (continuation found) post next) :
    Steady owner environment caller held (owner.pendingPackageRuntimeOperation >>= continuation)
      post state := by
  unfold Owner.pendingPackageRuntimeOperation
  rw [bind_assoc]
  refine lasting.transact trivial here fun before answer next _ known performs => ?_
  obtain ⟨rfl, same⟩ := performs.readPending
  cases found : before.ledger.pendingRequest owner.bindingId with
  | none =>
      rw [pure_bind]
      refine step none next known fun _ row member binding => ?_
      rw [same] at member
      exact Ledger.pendingRequest_none found member binding
  | some target =>
      obtain ⟨row, here, _⟩ := Ledger.pendingRequest_some found
      have recorded : Recorded target row next.ledger := ⟨row, by rw [same, here], .refl row⟩
      refine (lasting.and (.of_grows Recorded.grows)).transact trivial ⟨known, recorded⟩
        fun before answer next there known performs => ?_
      obtain ⟨rfl, _⟩ := performs.readRow
      obtain ⟨_, row, present, _⟩ := there
      refine step _ next known.1 fun missing => ?_
      rw [present] at missing
      cases missing

/-- `status` keeps what idle transactions keep. -/
theorem Lasting.status (lasting : Lasting owner environment caller held holds)
    (here : holds state) :
    Steady owner environment caller held owner.status (fun _ after => holds after) state := by
  unfold Owner.status
  refine lasting.pending here fun found next known _ => ?_
  cases found with
  | some pending =>
      dsimp only
      split
      · refine lasting.transact trivial known fun _ _ _ _ known _ => ?_
        refine lasting.transact trivial known fun _ answer _ _ known _ => ?_
        cases answer with
        | none => exact known
        | some record => exact known
      · exact known
  | none =>
      dsimp only
      unfold Owner.latestPackageRuntimeOperation
      rw [bind_assoc]
      refine lasting.transact trivial known fun _ answer _ _ known _ => ?_
      cases answer with
      | none => exact known
      | some target =>
          refine lasting.transact trivial known fun _ answer _ _ known _ => ?_
          cases answer with
          | none => exact known
          | some latest => exact known

end Status

theorem Ends.lasting : Lasting owner environment caller held
    (Ends owner environment caller requestId installationId) where
  stable := Ends.stable
  idle := by
    intro op state next answer idle ends performs
    have permits : Permits owner environment caller held state (.ledger op) := idle.permits
    exact ends.idle performs permits idle rfl

section Activation

theorem Underway.owns {pending : Option Payload}
    (underway : Underway owner environment caller requestId installationId ready spent pending state) :
    Owns caller requestId state := by
  cases ready with
  | true => exact .inr (underway.intended rfl)
  | false => exact .inl (underway.blank rfl).1

/-- Whatever the client does, the facts about the call hold when it is over. -/
def Failed (owner : Owner) (environment : Environment) (caller : Caller Command)
    (requestId installationId : String) (error : Failure) (state : State) : Prop :=
  ∃ ready spent, Underway owner environment caller requestId installationId ready spent
      (pendingReceiptDocument error requestId owner.bindingId installationId) state ∧
    ∀ payload, pendingReceiptDocument error requestId owner.bindingId installationId = some payload →
      lastOwn caller state.journal = some ⟨caller, .client (.raises error), ()⟩

/-- A receipt the owner accepts from an error carries this request and its scope. -/
theorem pendingReceiptDocument_matches {error : Failure} {payload : Payload}
    (accepted : pendingReceiptDocument error requestId owner.bindingId installationId =
      some payload) : ReceiptMatches owner requestId installationId payload.document := by
  unfold pendingReceiptDocument at accepted
  split at accepted
  · split at accepted
    · cases accepted
    · rename_i document _
      split at accepted
      · cases accepted
      · rename_i scope found
        split at accepted
        · cases accepted
        · rename_i matched
          simp only [not_or, Bool.not_eq_false] at matched
          split at accepted
          · split at accepted
            · cases accepted
            · cases accepted
              exact ⟨matched.1, scope, found, matched.2.2⟩
          · cases accepted
  · cases accepted

/-- A receipt that waits in an error, and a row that can still take it. -/
def Receivable (owner : Owner) (environment : Environment) (caller : Caller Command)
    (requestId installationId : String) (state : State) : Prop :=
  environment.Retaining owner caller requestId installationId →
    ∀ row, state.ledger.packageRuntimeOperation requestId = some row → row.unreceipted = true

theorem Receivable.stable :
    (discipline owner environment).Stable caller true
      (Receivable owner environment caller requestId installationId) := by
  rintro state next ⟨other, otherHeld, different, unheld, op, answer, performs, permits⟩
    receivable retaining row found
  rw [unheld rfl] at permits
  have foreign := retaining.unreconciled _ _ _ _ performs.admitted
  obtain ⟨old, known, rfl | ⟨_, transaction, rfl, rewrites⟩⟩ :=
    performs.origin permits.uncreating found
  · exact receivable retaining _ known
  · have before := receivable retaining old known
    cases rewrites with
    | kept => exact before
    | marked intended =>
        exact Operation.unreceipted_iff.mpr ⟨.inr rfl, (Operation.intended_iff.mp intended).2⟩
    | receiptPersisted receipt unreceipted => cases permits.1
    | outcomeCommitted runtimeStatus receipt pending encodable =>
        obtain ⟨_, _, _, ⟨held, _⟩ | ⟨reconciling, _⟩⟩ := permits
        · cases held
        · exact absurd reconciling foreign
    | completed completable =>
        rcases permits with ⟨held, _⟩ | ⟨reconciling, _⟩
        · cases held
        · exact absurd reconciling foreign

theorem Failed.stable {error : Failure} :
    (discipline owner environment).Stable caller true fun state : State =>
      Underway owner environment caller requestId installationId ready spent
          (pendingReceiptDocument error requestId owner.bindingId installationId) state ∧
        ∀ payload,
          pendingReceiptDocument error requestId owner.bindingId installationId = some payload →
          lastOwn caller state.journal = some ⟨caller, .client (.raises error), ()⟩ := by
  rintro state next interferes ⟨underway, last⟩
  refine ⟨Underway.stable interferes underway, fun payload pending => ?_⟩
  obtain ⟨other, _, different, _, op, answer, performs, _⟩ := interferes
  have apart : other ≠ caller := fun same => different (same ▸ rfl)
  rw [performs.journal]
  exact (lastOwn_append_other apart).trans (last payload pending)

/-- The call has ended, when what is still on its way is in the row already. -/
theorem Underway.ends_of {pending : Option Payload}
    (underway : Underway owner environment caller requestId installationId ready spent pending state)
    (rest : environment.Retaining owner caller requestId installationId → ready = true →
      ∀ payload, pending = some payload → Holds requestId payload.document state.ledger) :
    Ends owner environment caller requestId installationId state where
  coherent := underway.coherent
  holds retaining document delivered := by
    cases isReady : ready with
    | false => exact absurd delivered.intended (underway.blank isReady).2
    | true =>
        have kept := (underway.kept retaining isReady).2
        cases pending with
        | none => exact kept document delivered
        | some payload =>
            rw [kept.2 document delivered]
            exact rest retaining isReady payload rfl

/-- `persist_package_runtime_receipt` under the lock. -/
theorem Underway.receives {receipt : Payload} {answer : Except Failure Unit} {next : State}
    (underway : Underway owner environment caller requestId installationId ready spent (some receipt)
      state)
    (receivable : Receivable owner environment caller requestId installationId state)
    (performs : Performs environment caller
      (.ledger (.persistPackageRuntimeReceipt requestId receipt)) state answer next)
    (permits : Permits owner environment caller true state
      (.ledger (.persistPackageRuntimeReceipt requestId receipt))) :
    Ends owner environment caller requestId installationId next where
  coherent := performs.coherent permits underway.coherent
  holds retaining document delivered := by
    rw [performs.journal] at delivered
    rcases delivered_append.mp delivered with delivered | ⟨_, _, delivers⟩
    · cases isReady : ready with
      | false => exact absurd delivered.intended (underway.blank isReady).2
      | true =>
          obtain ⟨encodable, same⟩ := (underway.kept retaining isReady).2
          obtain ⟨row, found⟩ := Option.ne_none_iff_exists'.mp
            (underway.coherent.present (underway.intended isReady))
          have unreceipted := receivable retaining row found
          obtain ⟨now, ran⟩ := performs.effect
          rcases LedgerOp.run_persistReceipt ran with ⟨_, _, refused⟩ | ⟨_, _, rewritten⟩
          · rw [refused row found encodable] at unreceipted
            cases unreceipted
          · refine ⟨_, by rw [rewritten, found]; rfl, ?_⟩
            simp [Operation.receiptPersisted, Operation.updated, (Ledger.mem_of_lookup found).2,
              unreceipted, same document delivered]
    · cases delivers

variable (command : caller.command = .activate requestId installationId)
include command

theorem persistIntent_steady {actualRequestId : Option String} {scope : Option Scope}
    (underway : Underway owner environment caller requestId installationId ready spent none state) :
    Steady owner environment caller true
      (owner.persistIntent requestId installationId actualRequestId scope)
      (fun outcome after => Underway owner environment caller requestId installationId
        (ready || outcome.isOk) spent none after) state := by
  refine LockFree.ofExcept_bind (fun raised _ => ?_) fun _ _ => Steady.raised ?_
  · simpa [Except.isOk, Except.toBool] using underway
  · refine Steady.call Underway.stable underway fun before answer next known performs => ?_
    have permits : Permits owner environment caller true before (.ledger
        (.createPackageRuntimeIntent requestId owner.bindingId packageId installationId)) :=
      ⟨rfl, command, rfl, rfl, known.owns⟩
    have after := known.creates performs permits
    refine ⟨permits, LockFree.ofExcept_bind (fun raised same => ?_) fun row same => ?_⟩
    · rw [same] at after
      exact after
    · rw [same] at after
      exact after

/-- What the client hands to `persist` is on its way into the row. -/
theorem persist_steady {runtimeStatus : Option Payload} {receipt : Receipt}
    (underway : Underway owner environment caller requestId installationId ready spent
      (Event.delivery? owner requestId installationId
        ⟨caller, .client (.activates (.persist runtimeStatus receipt)), ()⟩) state) :
    Steady owner environment caller true
      (owner.persist requestId installationId runtimeStatus receipt)
      (fun _ after => Underway owner environment caller requestId installationId ready spent none
        after) state := by
  cases runtimeStatus with
  | none => exact underway
  | some status =>
      refine LockFree.ofExcept_bind (fun raised refused => ?_) fun _ accepted => ?_
      · simpa [Event.delivery?, refused] using underway
      · refine LockFree.ofExcept_bind (fun raised refused => ?_) fun document converted => ?_
        · simpa [Event.delivery?, accepted, refused] using underway
        · have pending : Underway owner environment caller requestId installationId ready spent
              (some ⟨document.document, status.encodable && document.encodable⟩) state := by
            simpa [Event.delivery?, accepted, converted] using underway
          refine Steady.raised_last (Steady.call Underway.stable pending
            fun before answer next known performs => ?_)
          have permits : Permits owner environment caller true before
              (.ledger (.commitPackageRuntimeOutcome requestId status document)) :=
            ⟨installationId, known.installed, accepted, .inl ⟨rfl, command, known.owns⟩⟩
          have after := known.commits performs permits
          exact ⟨permits, LockFree.ofExcept_bind (fun _ _ => after) fun _ _ => after⟩

theorem activate_behaviour_steady (behaviour : Behaviour ActivateCall)
    (careful : environment.Careful →
      behaviour.Careful ActivateCall.isPersistIntent ready spent)
    (underway : Underway owner environment caller requestId installationId ready spent none state) :
    Steady owner environment caller true
      (behaviour.run .activates (owner.activateCallback requestId installationId))
      (fun outcome after => match outcome with
        | .ok () => ∃ ready spent,
            Underway owner environment caller requestId installationId ready spent none after
        | .error error => Failed owner environment caller requestId installationId error after)
      state := by
  induction behaviour generalizing ready spent state with
  | returns => exact ⟨ready, spent, underway⟩
  | raises error =>
      refine Steady.call Underway.stable underway fun before answer next known performs => ?_
      have permits : Permits owner environment caller true before (.client (.raises error)) := trivial
      have after := known.idle performs permits trivial (.inl rfl)
      refine ⟨permits, ready, _, after, fun payload _ => ?_⟩
      rw [performs.journal]
      exact lastOwn_append_own rfl
  | dispatch rest ih =>
      refine Steady.call Underway.stable underway fun before answer next known performs => ?_
      have permits : Permits owner environment caller true before (.client .dispatches) := by
        intro assumed
        obtain ⟨isReady, unspent, _⟩ := careful assumed
        exact ⟨rfl, requestId, installationId, command, known.intended isReady,
          known.undispatched unspent, known.sole⟩
      have after := known.idle performs permits trivial (.inl rfl)
      refine ⟨permits, ih (fun assumed => ?_) after⟩
      simpa [Event.dispatches] using (careful assumed).2.2
  | calls call next ih =>
      refine Steady.call Underway.stable underway fun before answer after known performs => ?_
      have permits : Permits owner environment caller true before (.client (.activates call)) :=
        trivial
      have moved := known.idle performs permits trivial (.inl rfl)
      refine ⟨permits, LockFree.attempt_bind ?_⟩
      cases call with
      | persistIntent actualRequestId scope =>
          refine (persistIntent_steady command moved).mono fun outcome later known => ?_
          refine ih outcome (fun assumed => careful assumed outcome) ?_
          simpa [Event.dispatches, ActivateCall.isPersistIntent] using known
      | persist runtimeStatus receipt =>
          refine (persist_steady command moved).mono fun outcome later known => ?_
          refine ih outcome (fun assumed => careful assumed outcome) ?_
          simpa [Event.dispatches, ActivateCall.isPersistIntent] using known

/-- The guarded call completes the row, or hands its error to the handlers. -/
theorem activateAndComplete_steady
    (underway : Underway owner environment caller requestId installationId false false none state) :
    Steady owner environment caller true (owner.activateAndComplete requestId installationId)
      (fun outcome after => match outcome with
        | .ok () => Completed owner requestId after.ledger ∧
            Ends owner environment caller requestId installationId after
        | .error error => Failed owner environment caller requestId installationId error after)
      state := by
  refine Steady.call Underway.stable underway fun before answer next known performs => ?_
  have permits : Permits owner environment caller true before
      (.activateAndPersist owner.bindingId installationId packageId requestId) := trivial
  have after := known.idle performs permits trivial (.inl rfl)
  refine ⟨permits, LockFree.bind_run ?_⟩
  refine (activate_behaviour_steady command answer
    (fun assumed => assumed.activates performs.admitted) after).mono fun outcome later known => ?_
  cases outcome with
  | error error => exact known
  | ok value =>
      obtain ⟨ready, spent, underway⟩ := known
      refine Steady.raised_last (Steady.call Underway.stable underway
        fun before answer next known performs => ?_)
      have permits : Permits owner environment caller true before
          (.ledger (.completePackageRuntimeOperation requestId)) :=
        .inl ⟨rfl, ⟨installationId, command⟩, known.withStatus⟩
      refine ⟨permits, LockFree.ofExcept_bind (fun raised refused => ?_) fun _ accepted => ?_⟩
      · rcases known.completes performs permits with ⟨⟨kind, text, same⟩, after⟩ | ⟨same, _⟩
        · rw [same] at refused
          cases refused
          exact ⟨ready, spent, after, fun payload pending => by cases pending⟩
        · rw [same] at refused
          cases refused
      · rcases known.completes performs permits with ⟨⟨_, _, same⟩, _⟩ | ⟨_, ends⟩
        · rw [same] at accepted
          cases accepted
        · exact ends

/-- The handler of a foreign error saves the receipt that waits in it. -/
theorem activationFailed_steady {error : Failure}
    (failed : Failed owner environment caller requestId installationId error state) :
    Steady owner environment caller true (owner.activationFailed requestId installationId error)
      (fun outcome after => Ends owner environment caller requestId installationId after ∧
        outcome.isOk = false) state := by
  obtain ⟨ready, spent, underway, last⟩ := failed
  refine Steady.call Failed.stable ⟨underway, last⟩ fun before answer next known performs => ?_
  obtain ⟨known, last⟩ := known
  have permits : Permits owner environment caller true before
      (.ledger (.packageRuntimeOperation requestId)) := trivial
  have after := known.idle performs permits trivial (.inr rfl)
  rw [show Event.delivery? owner requestId installationId
    ⟨caller, .ledger (.packageRuntimeOperation requestId), answer⟩ = none from rfl,
    Option.or_none] at after
  obtain ⟨read, same⟩ := performs.readRow
  refine ⟨permits, ?_⟩
  cases answer with
  | none =>
      refine ⟨after.ends_of fun _ isReady _ _ => ?_, rfl⟩
      exact absurd (same ▸ read.symm) (after.coherent.present (after.intended isReady))
  | some current =>
      have found : next.ledger.packageRuntimeOperation requestId = some current := same ▸ read.symm
      dsimp only
      split
      · rename_i intent
        cases waiting : pendingReceiptDocument error requestId owner.bindingId installationId with
        | some receipt =>
            dsimp only
            rw [waiting] at after
            have receivable : Receivable owner environment caller requestId installationId next := by
              intro _ row here
              rw [found, Option.some.injEq] at here
              subst here
              have receipted := after.coherent.receipted current (Ledger.mem_of_lookup found).1
              refine Operation.unreceipted_iff.mpr ⟨.inl intent, ?_⟩
              simpa [Operation.Receipted, intent] using receipted
            refine Steady.raised (Steady.call (Underway.stable.and Receivable.stable)
              ⟨after, receivable⟩
              fun before answer next known performs => ?_)
            have permits : Permits owner environment caller true before
                (.ledger (.persistPackageRuntimeReceipt requestId receipt)) :=
              ⟨rfl, installationId, command, known.1.installed,
                pendingReceiptDocument_matches waiting⟩
            have ends := known.1.receives known.2 performs permits
            exact ⟨permits, LockFree.ofExcept_bind (fun _ _ => ⟨ends, rfl⟩) fun _ _ => ⟨ends, rfl⟩⟩
        | none =>
            dsimp only
            rw [waiting] at after
            exact Ends.lasting.transact trivial after.ends fun _ _ _ _ ends _ => ⟨ends, rfl⟩
      · rename_i started
        refine ⟨after.ends_of fun retaining isReady payload waiting => ?_, rfl⟩
        have retains := retaining.steps _ _ _ performs.admitted
        have found' : Event.read? requestId
            ⟨caller, .ledger (.packageRuntimeOperation requestId), some current⟩ = some current := by
          simp [Event.read?]
        rcases retains.read current _ payload found' (last payload waiting) waiting with
          intent | receipt
        · exact absurd intent started
        · exact ⟨current, found, receipt⟩

end Activation

/-- A call that has stored no intent and dispatched nothing yet. -/
structure Opening (caller : Caller Command) (requestId : String) (state : State) : Prop where
  coherent : Coherent state
  unintended : ¬ Intended caller requestId state.journal
  undispatched : ∀ event ∈ state.journal, event.caller = caller → event.dispatches = false

theorem Opening.ends (opening : Opening caller requestId state) :
    Ends owner environment caller requestId installationId state where
  coherent := opening.coherent
  holds _ _ delivered := absurd delivered.intended opening.unintended

theorem Opening.lasting : Lasting owner environment caller held (Opening caller requestId) where
  stable := by
    rintro state next ⟨other, otherHeld, different, _, op, answer, performs, permits⟩ opening
    have apart : other ≠ caller := fun same => different (same ▸ rfl)
    refine ⟨performs.coherent permits opening.coherent, fun intended => ?_, fun event member own => ?_⟩
    · rw [performs.journal] at intended
      rcases intended_append.mp intended with earlier | ⟨own, _⟩
      · exact opening.unintended earlier
      · exact apart own
    · rw [performs.journal] at member
      rcases List.mem_append.mp member with earlier | last
      · exact opening.undispatched event earlier own
      · rw [List.mem_singleton.mp last] at own
        exact absurd own apart
  idle := by
    intro op state next answer idle opening performs
    have permits : Permits owner environment caller held state (.ledger op) := idle.permits
    refine ⟨performs.coherent permits opening.coherent, fun intended => ?_,
      fun event member own => ?_⟩
    · rw [performs.journal] at intended
      rcases intended_append.mp intended with earlier | ⟨_, storing⟩
      · exact opening.unintended earlier
      · exact absurd (storing.symm.trans idle.unintended) fun same => by cases same
    · rw [performs.journal] at member
      rcases List.mem_append.mp member with earlier | last
      · exact opening.undispatched event earlier own
      · rw [List.mem_singleton.mp last]
        rfl

/-- While a thread owns the lock, no other stores an intent. -/
theorem lasting_absent : Lasting owner environment caller true
    fun state => state.ledger.packageRuntimeOperation requestId = none where
  stable := by
    rintro state next ⟨other, otherHeld, _, unheld, op, answer, performs, permits⟩ absent
    rw [unheld rfl] at permits
    exact performs.stillAbsent permits.uncreating absent
  idle := fun idle absent performs => performs.stillAbsent idle.uncreating absent

/-- The call of the client starts under way. -/
theorem Opening.underway (opening : Opening caller requestId state)
    (absent : state.ledger.packageRuntimeOperation requestId = none)
    (idle : ∀ row ∈ state.ledger.rows, row.bindingId = owner.bindingId →
      row.phase.pending = false) :
    Underway owner environment caller requestId installationId false false none state where
  coherent := opening.coherent
  intended := fun isReady => by cases isReady
  blank := fun _ => ⟨absent, opening.unintended⟩
  installed := fun row found => by rw [absent] at found; cases found
  sole := fun row member binding pending => by
    rw [idle row member binding] at pending
    cases pending
  withStatus := fun row found => by rw [absent] at found; cases found
  undispatched := fun _ => opening.undispatched
  kept := fun _ isReady => by cases isReady

/-- What is known when a command has ended. -/
def Finish (owner : Owner) (environment : Environment) (caller : Caller Command)
    (result : Except Failure PublicState) (state : State) : Prop :=
  match caller.command with
  | .activate requestId installationId =>
      Ends owner environment caller requestId installationId state ∧
        (result.isOk = true → Completed owner requestId state.ledger)
  | .reconcile requestId => result.isOk = true → Completed owner requestId state.ledger
  | .status => True

section Commands

theorem checkScope_bindingId {record : Operation}
    (checked : owner.checkScope record installationId = .ok ()) :
    record.bindingId = owner.bindingId := by
  unfold Owner.checkScope at checked
  split at checked
  · cases checked
  · rename_i same
    simp only [ne_eq, Prod.mk.injEq, not_not] at same
    exact same.1

theorem replayed_steady {existing : Operation}
    (ends : Ends owner environment caller requestId installationId state)
    (found : state.ledger.packageRuntimeOperation requestId = some existing) :
    Steady owner environment caller held (owner.replayed requestId installationId existing)
      (fun outcome after => Ends owner environment caller requestId installationId after ∧
        (outcome.isOk = true → Completed owner requestId after.ledger)) state := by
  refine LockFree.ofExcept_bind (fun _ _ => ⟨ends, fun ok => by cases ok⟩) fun _ checked => ?_
  split
  · rename_i completed
    exact ⟨ends, fun _ => ⟨existing, found, checkScope_bindingId checked, completed⟩⟩
  · split
    · exact ⟨ends, fun ok => by cases ok⟩
    · split
      · exact Ends.lasting.transact trivial ends fun _ _ _ _ ends _ => ⟨ends, fun ok => by cases ok⟩
      · exact ⟨ends, fun ok => by cases ok⟩

theorem activateNew_steady (command : caller.command = .activate requestId installationId)
    (underway : Underway owner environment caller requestId installationId false false none state) :
    Steady owner environment caller true (owner.activateNew requestId installationId)
      (fun outcome after => Ends owner environment caller requestId installationId after ∧
        (outcome.isOk = true → Completed owner requestId after.ledger)) state := by
  refine LockFree.attempt_bind ((activateAndComplete_steady command underway).mono
    fun outcome after known => ?_)
  cases outcome with
  | ok value =>
      exact ((Ends.lasting.and (.of_grows Completed.grows)).status ⟨known.2, known.1⟩).mono
        fun _ _ both => ⟨both.1, fun _ => both.2⟩
  | error error =>
      cases error with
      | owner code status =>
          obtain ⟨ready, spent, underway, _⟩ := known
          exact ⟨underway.ends, fun ok => by cases ok⟩
      | exception kind text | client code pending =>
          refine (activationFailed_steady command known).mono fun outcome after ended => ?_
          exact ⟨ended.1, fun ok => by rw [ended.2] at ok; cases ok⟩

theorem activateLocked_steady (command : caller.command = .activate requestId installationId)
    (opening : Opening caller requestId state) :
    Steady owner environment caller true (owner.activateLocked requestId installationId)
      (fun outcome after => Ends owner environment caller requestId installationId after ∧
        (outcome.isOk = true → Completed owner requestId after.ledger)) state := by
  refine LockFree.ofExcept_bind (fun _ _ => ⟨opening.ends, fun ok => by cases ok⟩) fun _ _ => ?_
  refine Opening.lasting.transact trivial opening fun before answer next _ opening performs => ?_
  obtain ⟨read, same⟩ := performs.readRow
  cases answer with
  | some existing => exact replayed_steady opening.ends (same ▸ read.symm)
  | none =>
      have absent : next.ledger.packageRuntimeOperation requestId = none := same ▸ read.symm
      refine (Opening.lasting.and lasting_absent).pending ⟨opening, absent⟩
        fun found after known idle => ?_
      cases found with
      | some pending => exact ⟨known.1.ends, fun ok => by cases ok⟩
      | none => exact activateNew_steady command (known.1.underway known.2 (idle rfl))

/-- A row that was read keeps its installation. -/
theorem Recorded.installedAs {record : Operation} {ledger : Ledger}
    (binding : record.bindingId = owner.bindingId) (recorded : Recorded requestId record ledger) :
    InstalledAs owner requestId record.installationId ledger := by
  intro row found
  obtain ⟨other, foundOther, advances⟩ := recorded
  rw [found, Option.some.injEq] at foundOther
  subst foundOther
  exact ⟨advances.bindingId.trans binding, advances.installationId⟩

theorem toPrivateDocument_document {receipt : Receipt} {document : Payload}
    (converted : receipt.toPrivateDocument = .ok document) :
    document.document = receipt.attributes := by
  unfold Receipt.toPrivateDocument at converted
  split at converted
  · cases converted
  · split at converted
    · cases converted
    · cases converted
      rfl

/-- A receipt whose attributes the owner has checked, stored as a document. -/
theorem checkBrokerReceipt_matches {receipt : Receipt}
    (checked : owner.checkBrokerReceipt requestId installationId receipt = .ok ()) :
    ReceiptMatches owner requestId installationId receipt.attributes := by
  unfold Owner.checkBrokerReceipt at checked
  split at checked
  · cases checked
  · rename_i request
    simp only [Bool.not_eq_false] at request
    split at checked
    · cases checked
    · cases checked
    · rename_i scope found
      split at checked
      · cases checked
      · split at checked
        · cases checked
        · rename_i matched
          exact ⟨request, scope, by rw [object?, found], by simpa using matched⟩
    · cases checked

/-- A callback that returns normally has stored a status. -/
theorem reconcileCallback_steady (command : caller.command = .reconcile requestId)
    {record : Operation} (binding : record.bindingId = owner.bindingId) (call : ReconcileCall)
    {keeps : Ledger → Prop}
    (grown : ∀ {before after : Ledger}, before.Grows after → keeps before → keeps after)
    (recorded : ∀ {ledger : Ledger}, keeps ledger → Recorded requestId record ledger)
    (here : keeps state.ledger) :
    Steady owner environment caller false (owner.reconcileCallback requestId record call)
      (fun outcome after => keeps after.ledger ∧
        (outcome.isOk = true → Statused requestId after.ledger)) state := by
  have refused : ∀ {error : Failure} {after : State}, keeps after.ledger → keeps after.ledger ∧
      ((Except.error error : Except Failure Unit).isOk = true → Statused requestId after.ledger) :=
    fun kept => ⟨kept, fun ok => by cases ok⟩
  obtain ⟨runtimeStatus, installation, brokerReceipt⟩ := call
  refine LockFree.ofExcept_bind (fun _ _ => refused here) fun _ checked => ?_
  cases runtimeStatus with
  | none => exact refused here
  | some runtimeStatus =>
      refine LockFree.ofExcept_bind (fun _ _ => refused here) fun _ accepted => ?_
      refine LockFree.ofExcept_bind (fun _ _ => refused here) fun _ _ => ?_
      refine LockFree.ofExcept_bind (fun _ _ => refused here) fun _ _ => ?_
      refine LockFree.ofExcept_bind (fun _ _ => refused here) fun document converted => ?_
      have stays : Lasting owner environment caller false fun state => keeps state.ledger :=
        .of_grows grown
      refine Steady.raised_last (Steady.call stays.stable here
        fun before answer next known performs => ?_)
      have matched : ReceiptMatches owner requestId record.installationId document.document := by
        rw [toPrivateDocument_document converted]
        exact checkBrokerReceipt_matches checked
      have kept := grown performs.grows known
      refine ⟨⟨record.installationId, (recorded known).installedAs binding, accepted,
        .inr ⟨command, matched⟩⟩, LockFree.ofExcept_bind (fun _ _ => refused kept)
          fun _ stored => ⟨kept, fun _ => ?_⟩⟩
      obtain ⟨now, ran⟩ := performs.effect
      rcases LedgerOp.run_commit ran with ⟨⟨_, same⟩, _⟩ | ⟨_, _, ⟨row, found, pending⟩, rewritten⟩
      · rw [same] at stored
        cases stored
      · refine ⟨_, by rw [rewritten, found]; rfl, ?_⟩
        simp [Operation.outcomeCommitted, Operation.updated, (Ledger.mem_of_lookup found).2,
          pending]

/-- A status is stored, or the client is still going to have one stored. -/
def Promised (assumed : Prop) (requestId : String) (record : Operation)
    (behaviour : Behaviour ReconcileCall) (ledger : Ledger) : Prop :=
  Recorded requestId record ledger ∧
    (assumed → behaviour.Convinced ∨ Statused requestId ledger)

theorem Promised.grows {assumed : Prop} {record : Operation} {behaviour : Behaviour ReconcileCall}
    {before after : Ledger} (grows : before.Grows after)
    (promised : Promised assumed requestId record behaviour before) :
    Promised assumed requestId record behaviour after :=
  ⟨promised.1.grows grows, fun holds => (promised.2 holds).imp_right (Statused.grows grows)⟩

theorem reconcile_behaviour_steady (command : caller.command = .reconcile requestId)
    {record : Operation} (binding : record.bindingId = owner.bindingId)
    (behaviour : Behaviour ReconcileCall)
    (careful : environment.Careful → behaviour.Careful (fun _ => false) false false)
    {assumed : Prop} (promised : Promised assumed requestId record behaviour state.ledger) :
    Steady owner environment caller false
      (behaviour.run .reconciles (owner.reconcileCallback requestId record))
      (fun outcome after => Recorded requestId record after.ledger ∧
        (outcome.isOk = true → assumed → Statused requestId after.ledger)) state := by
  have stays : ∀ behaviour, Lasting owner environment caller false fun state =>
      Promised assumed requestId record behaviour state.ledger :=
    fun _ => .of_grows Promised.grows
  induction behaviour generalizing state with
  | returns => exact ⟨promised.1, fun _ holds => (promised.2 holds).resolve_left id⟩
  | raises error =>
      refine Steady.call (stays _).stable promised fun before answer next known performs => ?_
      exact ⟨trivial, known.1.grows performs.grows, fun ok => by cases ok⟩
  | dispatch rest ih =>
      refine Steady.call (stays _).stable promised fun before answer next known performs => ?_
      refine ⟨fun assumed => ?_, ih (fun assumed => ?_) (known.grows performs.grows)⟩
      · cases (careful assumed).1
      · cases (careful assumed).1
  | calls call continuation ih =>
      refine Steady.call (stays _).stable promised fun before answer next known performs => ?_
      refine ⟨trivial, LockFree.attempt_bind ?_⟩
      refine (reconcileCallback_steady command binding call Promised.grows (fun kept => kept.1)
        (known.grows performs.grows)).mono fun outcome later known => ?_
      refine ih outcome (fun assumed => ?_) ⟨known.1.1, fun holds => ?_⟩
      · simpa using careful assumed outcome
      · cases accepted : outcome.isOk with
        | true => exact .inr (known.2 accepted)
        | false => exact (known.1.2 holds).imp_left fun convinced => convinced outcome accepted

theorem reconcileAndComplete_steady (command : caller.command = .reconcile requestId)
    {record : Operation} {receipt : Document} (binding : record.bindingId = owner.bindingId)
    (recorded : Recorded requestId record state.ledger) :
    Steady owner environment caller false (owner.reconcileAndComplete requestId record receipt)
      (fun outcome after => outcome.isOk = true → Completed owner requestId after.ledger) state := by
  have stays : Lasting owner environment caller false fun state =>
      Recorded requestId record state.ledger := .of_grows Recorded.grows
  refine Steady.call stays.stable recorded fun before answer next known performs => ?_
  have promised : Promised environment.ReconcilesWithStatus requestId record answer
      next.ledger := by
    refine ⟨known.grows performs.grows, fun assumed => ?_⟩
    obtain ⟨row, found, _⟩ := known
    refine (assumed performs.admitted command).imp_right fun stored => ?_
    exact Statused.grows performs.grows ⟨row, found, stored row found⟩
  refine ⟨trivial, LockFree.bind_run ((reconcile_behaviour_steady command binding answer
    (fun assumed => assumed.reconciles performs.admitted) promised).mono
      fun outcome later known => ?_)⟩
  cases outcome with
  | error error => exact fun ok => by cases ok
  | ok value =>
      obtain ⟨recorded, statused⟩ := known
      -- The client has returned, so that the status is stored.
      have stays : Lasting owner environment caller false fun state =>
          Promised environment.ReconcilesWithStatus requestId record .returns state.ledger :=
        .of_grows Promised.grows
      refine Steady.raised_last (Steady.call stays.stable
        ⟨recorded, fun assumed => .inr (statused rfl assumed)⟩
        fun before answer next known performs => ?_)
      refine ⟨.inr ⟨command, fun assumed => ((known.2 assumed).resolve_left id).withStatus⟩,
        LockFree.ofExcept_bind (fun _ _ ok => by cases ok) fun _ accepted _ => ?_⟩
      obtain ⟨now, ran⟩ := performs.effect
      rcases LedgerOp.run_complete ran with
        ⟨⟨_, _, same⟩, _⟩ | ⟨_, ⟨row, found, completable⟩, rewritten⟩
      · rw [same] at accepted
        cases accepted
      · refine ⟨_, by rw [rewritten, found]; rfl, ?_, ?_⟩
        · rw [(Operation.completion_narrows now requestId).bindingId]
          exact (known.1.installedAs binding row found).1
        · simp [Operation.completion, Operation.updated, (Ledger.mem_of_lookup found).2, completable]

theorem receiptFromPrivateDocument_steady {record : Operation} (document : Document)
    (recorded : Recorded requestId record state.ledger) :
    Steady owner environment caller held (Owner.receiptFromPrivateDocument document)
      (fun _ after => Recorded requestId record after.ledger) state := by
  have stays : Lasting owner environment caller held fun state =>
      Recorded requestId record state.ledger := .of_grows Recorded.grows
  unfold Owner.receiptFromPrivateDocument
  split
  · refine Steady.call stays.stable recorded fun before answer next known performs => ?_
    refine ⟨trivial, ?_⟩
    split
    · exact known.grows performs.grows
    · exact known.grows performs.grows
  · exact recorded

theorem reconcile_steady (command : caller.command = .reconcile requestId) :
    Steady owner environment caller false (owner.reconcile requestId)
      (fun outcome after => outcome.isOk = true → Completed owner requestId after.ledger) state := by
  have anything : Lasting owner environment caller false fun _ => True :=
    ⟨fun _ _ _ _ => trivial, fun _ _ _ => trivial⟩
  refine anything.transact trivial trivial fun before answer next _ _ performs => ?_
  obtain ⟨read, same⟩ := performs.readRow
  cases answer with
  | none => exact fun ok => by cases ok
  | some record =>
      have recorded : Recorded requestId record next.ledger := ⟨record, same ▸ read.symm, .refl _⟩
      refine LockFree.ofExcept_bind (fun _ _ ok => by cases ok) fun _ checked => ?_
      have binding := checkScope_bindingId checked
      cases record.receipt with
      | none => exact fun ok => by cases ok
      | some receipt =>
          dsimp only
          refine LockFree.bind_run ((receiptFromPrivateDocument_steady receipt recorded).mono
            fun outcome later known => ?_)
          cases outcome with
          | error error => exact fun ok => by cases ok
          | ok value =>
              refine LockFree.attempt_bind ((reconcileAndComplete_steady command binding known).mono
                fun outcome last completed => ?_)
              cases outcome with
              | ok value =>
                  have stays : Lasting owner environment caller false fun state =>
                      Completed owner requestId state.ledger := .of_grows Completed.grows
                  exact (stays.status (completed rfl)).mono fun _ _ completed _ => completed
              | error error =>
                  cases error with
                  | owner code status | exception kind text | client code pending =>
                      exact fun ok => by cases ok

/-- Every command keeps the discipline and ends with what is promised of it. -/
theorem body_verified (index : Nat) (command : Command) (state : State)
    (fresh : (discipline owner environment).fresh index state) :
    (discipline owner environment).Verified ⟨index, command⟩ 0 (owner.body command).run
      (Finish owner environment ⟨index, command⟩) state := by
  cases command with
  | activate requestId installationId =>
      refine Verified.of_locked fun before relied coherent => ?_
      have unseen := (discipline owner environment).fresh_of_rely fresh relied
      have opening : Opening ⟨index, .activate requestId installationId⟩ requestId before := by
        refine ⟨coherent, ?_, fun event member own => ?_⟩
        · rintro ⟨event, member, own, _⟩
          exact unseen event member (own ▸ rfl)
        · exact absurd (own ▸ rfl) (unseen event member)
      refine (activateLocked_steady rfl opening).mono fun outcome after known later relied => ?_
      have ends := Ends.stable.rely relied known.1
      refine ⟨ends.coherent, ends, fun ok => ?_⟩
      have stays : Lasting owner environment ⟨index, .activate requestId installationId⟩ true
          fun state => Completed owner requestId state.ledger := .of_grows Completed.grows
      exact stays.stable.rely relied (known.2 ok)
  | reconcile requestId => exact Verified.unlocked (reconcile_steady rfl)
  | status =>
      have anything : Lasting owner environment ⟨index, .status⟩ false fun _ => True :=
        ⟨fun _ _ _ _ => trivial, fun _ _ _ => trivial⟩
      exact Verified.unlocked (anything.status trivial)

end Commands

end CyreneReactor.PackageRuntime
