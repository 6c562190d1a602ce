import CyreneReactor.Interaction.LockFree
import CyreneReactor.PackageRuntime.Operations
import CyreneReactor.PackageRuntime.Owner

namespace CyreneReactor.PackageRuntime

open Interaction

/-! What each entry point may do to the ledger, and when.

An intent is created, a pending receipt is saved and a mutation is dispatched
under the operation lock only.  `status` and `reconcile` run without it, but they
never open a row.
-/

namespace Event

/-- The request id an event stored an intent for, or found it stored. -/
def intended? : Event → Option String
  | ⟨_, .ledger (.createPackageRuntimeIntent requestId _ _ _), answer⟩ =>
      match (answer : Except Failure Operation) with
      | .ok _ => some requestId
      | .error _ => none
  | _ => none

def dispatches : Event → Bool
  | ⟨_, .client .dispatches, _⟩ => true
  | _ => false

/-- The receipt a client delivers for an activation: with a status the owner
accepts, or with an error. -/
def delivery? (owner : Owner) (requestId installationId : String) : Event → Option Payload
  | ⟨_, .client (.activates (.persist (some status) receipt)), _⟩ =>
      match owner.validateActual status.document installationId, receipt.toPrivateDocument with
      | .ok (), .ok document => some ⟨document.document, status.encodable && document.encodable⟩
      | _, _ => none
  | ⟨_, .client (.raises error), _⟩ =>
      pendingReceiptDocument error requestId owner.bindingId installationId
  | _ => none

/-- The row an event read. -/
def read? (requestId : String) : Event → Option Operation
  | ⟨_, .ledger (.packageRuntimeOperation target), answer⟩ =>
      if target = requestId then (answer : Option Operation) else none
  | _ => none

end Event

/-- A call's `persist_intent` has returned normally. -/
def Intended (caller : Caller Command) (requestId : String) (journal : List Event) : Prop :=
  ∃ event ∈ journal, event.caller = caller ∧ event.intended? = some requestId

/-- A receipt was delivered to a call after its `persist_intent` had returned. -/
def Delivered (owner : Owner) (caller : Caller Command) (requestId installationId : String)
    (journal : List Event) (document : Document) : Prop :=
  ∃ earlier event later, journal = earlier ++ event :: later ∧
    Intended caller requestId earlier ∧ event.caller = caller ∧
    (event.delivery? owner requestId installationId).map Payload.document = some document

def lastOwn (caller : Caller Command) (journal : List Event) : Option Event :=
  (journal.filter fun event => event.caller = caller).getLast?

section Events

variable {owner : Owner} {caller : Caller Command} {requestId installationId : String}
  {journal : List Event} {event : Event} {document : Document}

theorem intended_append :
    Intended caller requestId (journal ++ [event]) ↔
      Intended caller requestId journal ∨
        (event.caller = caller ∧ event.intended? = some requestId) := by
  simp [Intended, or_and_right, exists_or]

theorem Intended.append (intended : Intended caller requestId journal) :
    Intended caller requestId (journal ++ [event]) :=
  intended_append.mpr (.inl intended)

theorem delivered_append :
    Delivered owner caller requestId installationId (journal ++ [event]) document ↔
      Delivered owner caller requestId installationId journal document ∨
        (Intended caller requestId journal ∧ event.caller = caller ∧
          (event.delivery? owner requestId installationId).map Payload.document =
            some document) := by
  constructor
  · rintro ⟨earlier, delivery, later, split, intended, own, delivers⟩
    rcases List.eq_nil_or_concat later with rfl | ⟨rest, last, rfl⟩
    · obtain ⟨rfl, same⟩ := List.append_inj' split rfl
      cases same
      exact .inr ⟨intended, own, delivers⟩
    · rw [List.concat_eq_append, ← List.cons_append, ← List.append_assoc] at split
      obtain ⟨rfl, _⟩ := List.append_inj' split rfl
      exact .inl ⟨earlier, delivery, rest, rfl, intended, own, delivers⟩
  · rintro (⟨earlier, delivery, later, rfl, rest⟩ | ⟨intended, own, delivers⟩)
    · exact ⟨earlier, delivery, later ++ [event], by simp, rest⟩
    · exact ⟨journal, event, [], rfl, intended, own, delivers⟩

theorem Delivered.intended
    (delivered : Delivered owner caller requestId installationId journal document) :
    Intended caller requestId journal := by
  obtain ⟨earlier, _, later, rfl, ⟨event, member, holds⟩, _⟩ := delivered
  exact ⟨event, List.mem_append_left _ member, holds⟩

theorem lastOwn_append_own (own : event.caller = caller) :
    lastOwn caller (journal ++ [event]) = some event := by
  simp [lastOwn, List.filter_append, own]

theorem lastOwn_append_other (other : event.caller ≠ caller) :
    lastOwn caller (journal ++ [event]) = lastOwn caller journal := by
  simp [lastOwn, List.filter_append, other]

end Events

def ActivateCall.isPersistIntent : ActivateCall → Bool
  | .persistIntent _ _ => true
  | .persist _ _ => false

/-- At most one mutation is dispatched, and only after the hook `isHook` picks
out has returned normally. -/
def Behaviour.Careful {Call : Type} (isHook : Call → Bool) :
    (ready spent : Bool) → Behaviour Call → Prop
  | _, _, .returns => True
  | _, _, .raises _ => True
  | ready, spent, .dispatch rest => ready = true ∧ spent = false ∧ rest.Careful isHook ready true
  | ready, spent, .calls call next =>
      ∀ outcome, (next outcome).Careful isHook (ready || (isHook call && outcome.isOk)) spent

/-- Each call of the platform client is careful; the one that reconciles has no
such hook. -/
structure Environment.Careful (environment : Environment) : Prop where
  activates : ∀ {state caller bindingId installationId packageId requestId behaviour},
    environment state caller (.activateAndPersist bindingId installationId packageId requestId)
      behaviour → Behaviour.Careful ActivateCall.isPersistIntent false false behaviour
  reconciles : ∀ {state caller receipt behaviour},
    environment state caller (.reconcileBindingOperationAndPersist receipt) behaviour →
      Behaviour.Careful (fun _ => false) false false behaviour

/-- The call returns normally only after one of its callbacks did. -/
def Behaviour.Convinced {Call : Type} : Behaviour Call → Prop
  | .returns => False
  | .raises _ => True
  | .dispatch rest => rest.Convinced
  | .calls _ next => ∀ outcome : Except Failure Unit, outcome.isOk = false →
      (next outcome).Convinced

/-- A reconciling client returns normally only after its callback took a status, unless the row
has one when the client is called. -/
def Environment.ReconcilesWithStatus (environment : Environment) : Prop :=
  ∀ {state : State} {caller : Caller Command} {requestId : String} {receipt : Document}
    {behaviour : Behaviour ReconcileCall},
    environment state caller (.reconcileBindingOperationAndPersist receipt) behaviour →
    caller.command = .reconcile requestId → behaviour.Convinced ∨
      ∀ row, state.ledger.packageRuntimeOperation requestId = some row →
        row.runtimeStatus.isSome = true

/-- A receipt document with the request id and the scope of one activation. -/
def ReceiptMatches (owner : Owner) (requestId installationId : String) (document : Document) :
    Prop :=
  reads document "request_id" requestId = true ∧
    ∃ scope, object? document "scope" = some scope ∧
      scopeMatches scope owner.bindingId installationId = true

/-- Only this request of the binding may be pending. -/
def SolePending (owner : Owner) (requestId : String) (ledger : Ledger) : Prop :=
  ∀ row ∈ ledger.rows, row.bindingId = owner.bindingId → row.phase.pending = true →
    row.requestId = requestId

/-- A row that has a receipt has a runtime status. -/
def WithStatus (requestId : String) (ledger : Ledger) : Prop :=
  ∀ row, ledger.packageRuntimeOperation requestId = some row → row.receipt.isSome = true →
    row.runtimeStatus.isSome = true

/-- The row of a request, if there is one, is of this installation on the binding. -/
def InstalledAs (owner : Owner) (requestId installationId : String) (ledger : Ledger) : Prop :=
  ∀ row, ledger.packageRuntimeOperation requestId = some row →
    row.bindingId = owner.bindingId ∧ row.installationId = installationId

/-- The row is new, or this call stored it. -/
def Owns (caller : Caller Command) (requestId : String) (state : State) : Prop :=
  state.ledger.packageRuntimeOperation requestId = none ∨
    Intended caller requestId state.journal

def Permits (owner : Owner) (environment : Environment) (caller : Caller Command) (held : Bool)
    (state : State) : Op → Prop
  | .ledger (.createPackageRuntimeIntent requestId bindingId package installationId) =>
      held = true ∧ caller.command = .activate requestId installationId ∧
        bindingId = owner.bindingId ∧ package = packageId ∧ Owns caller requestId state
  | .ledger (.persistPackageRuntimeReceipt requestId receipt) =>
      held = true ∧ ∃ installationId, caller.command = .activate requestId installationId ∧
        InstalledAs owner requestId installationId state.ledger ∧
        ReceiptMatches owner requestId installationId receipt.document
  | .ledger (.commitPackageRuntimeOutcome requestId runtimeStatus receipt) =>
      ∃ installationId, InstalledAs owner requestId installationId state.ledger ∧
        owner.validateActual runtimeStatus.document installationId = .ok () ∧
        (held = true ∧ caller.command = .activate requestId installationId ∧
            Owns caller requestId state ∨
          caller.command = .reconcile requestId ∧
            ReceiptMatches owner requestId installationId receipt.document)
  | .ledger (.completePackageRuntimeOperation requestId) =>
      held = true ∧ (∃ installationId, caller.command = .activate requestId installationId) ∧
          WithStatus requestId state.ledger ∨
        caller.command = .reconcile requestId ∧
          (environment.ReconcilesWithStatus → WithStatus requestId state.ledger)
  | .client .dispatches =>
      environment.Careful → held = true ∧ ∃ requestId installationId,
        caller.command = .activate requestId installationId ∧
        Intended caller requestId state.journal ∧
        (∀ event ∈ state.journal, event.caller = caller → event.dispatches = false) ∧
        SolePending owner requestId state.ledger
  | _ => True

/-- What holds of every state: rows hold the receipts of their phase, and an
intent that was stored stays, with the one call that stored it. -/
structure Coherent (state : State) : Prop where
  receipted : state.ledger.WellReceipted
  present : ∀ {caller requestId}, Intended caller requestId state.journal →
    state.ledger.packageRuntimeOperation requestId ≠ none
  unique : ∀ {first second requestId}, Intended first requestId state.journal →
    Intended second requestId state.journal → first = second

namespace Performs

variable {environment : Environment} {caller : Caller Command} {op : Op} {state next : State}
  {answer : op.Answer} {requestId : String}

theorem unchanged (performs : Performs environment caller op state answer next)
    (other : ∀ transaction, op ≠ .ledger transaction) : next.ledger = state.ledger := by
  have effect := performs.effect
  cases op with
  | ledger transaction => exact absurd rfl (other transaction)
  | client | activateAndPersist | reconcileBindingOperationAndPersist
  | bindingOperationReceipt => exact effect

theorem present {old : Operation} (performs : Performs environment caller op state answer next)
    (found : state.ledger.packageRuntimeOperation requestId = some old) :
    ∃ new, next.ledger.packageRuntimeOperation requestId = some new ∧
      (new = old ∨ ∃ now transaction, op = .ledger transaction ∧
        LedgerOp.Rewrites now requestId old transaction new) := by
  cases op with
  | ledger transaction =>
      obtain ⟨now, ran⟩ := performs.effect
      obtain ⟨new, foundNew, rewrites⟩ := transaction.run_present ran found
      exact ⟨new, foundNew, .inr ⟨now, transaction, rfl, rewrites⟩⟩
  | client | activateAndPersist | reconcileBindingOperationAndPersist
  | bindingOperationReceipt =>
      exact ⟨old, by rw [performs.unchanged (fun _ same => by cases same), found], .inl rfl⟩

theorem absent (performs : Performs environment caller op state answer next)
    (missing : state.ledger.packageRuntimeOperation requestId = none) :
    next.ledger.packageRuntimeOperation requestId = none ∨
      ∃ bindingId packageId installationId now,
        op = .ledger (.createPackageRuntimeIntent requestId bindingId packageId installationId) ∧
        state.ledger.Created ⟨requestId, bindingId, packageId, installationId, "activate", .intent,
          none, none, now⟩ next.ledger := by
  cases op with
  | ledger transaction =>
      obtain ⟨now, ran⟩ := performs.effect
      rcases transaction.run_absent ran missing with missing | ⟨_, _, _, rfl, created⟩
      · exact .inl missing
      · exact .inr ⟨_, _, _, now, rfl, created⟩
  | client | activateAndPersist | reconcileBindingOperationAndPersist
  | bindingOperationReceipt =>
      exact .inl (by rw [performs.unchanged (fun _ same => by cases same), missing])

theorem grows (performs : Performs environment caller op state answer next) :
    state.ledger.Grows next.ledger := by
  intro requestId old found
  obtain ⟨new, foundNew, same | ⟨_, _, _, rewrites⟩⟩ := performs.present found
  · exact ⟨new, foundNew, same ▸ .refl old⟩
  · exact ⟨new, foundNew, rewrites.advances⟩

theorem wellReceipted (performs : Performs environment caller op state answer next)
    (well : state.ledger.WellReceipted) : next.ledger.WellReceipted := by
  cases op with
  | ledger transaction =>
      obtain ⟨now, ran⟩ := performs.effect
      exact Ledger.wellReceipted_of_run ran well
  | client | activateAndPersist | reconcileBindingOperationAndPersist
  | bindingOperationReceipt =>
      rw [performs.unchanged (fun _ same => by cases same)]
      exact well

/-- The event of a call stores an intent only when the call is `create_package_runtime_intent`. -/
theorem intended (performs : Performs environment caller op state answer next)
    (stored : Event.intended? ⟨caller, op, answer⟩ = some requestId) :
    (∃ bindingId packageId installationId, op =
        .ledger (.createPackageRuntimeIntent requestId bindingId packageId installationId)) ∧
      next.ledger.packageRuntimeOperation requestId ≠ none := by
  unfold Event.intended? at stored
  split at stored
  · rename_i same
    cases same
    obtain ⟨now, ran⟩ := performs.effect
    split at stored
    · cases stored
      refine ⟨⟨_, _, _, rfl⟩, ?_⟩
      rcases LedgerOp.run_create ran with ⟨_, wrong, _⟩ | ⟨row, _, same, found, _⟩ | ⟨_, created⟩
      · cases wrong
      · rw [same, found]
        exact fun none => by cases none
      · rw [created.here]
        exact fun none => by cases none
    · cases stored
  · cases stored

theorem coherent {owner : Owner} {held : Bool}
    (performs : Performs environment caller op state answer next)
    (permits : Permits owner environment caller held state op) (coherent : Coherent state) :
    Coherent next where
  receipted := performs.wellReceipted coherent.receipted
  present := by
    intro other requestId intended
    rw [performs.journal] at intended
    rcases intended_append.mp intended with earlier | ⟨_, stored⟩
    · obtain ⟨old, found⟩ := Option.ne_none_iff_exists'.mp (coherent.present earlier)
      obtain ⟨new, foundNew, _⟩ := performs.grows requestId old found
      rw [foundNew]
      exact fun none => by cases none
    · exact (performs.intended stored).2
  unique := by
    have stored : ∀ {other : Caller Command} {requestId : String},
        Intended other requestId state.journal →
        Event.intended? ⟨caller, op, answer⟩ = some requestId → other = caller := by
      intro other requestId earlier stored
      obtain ⟨⟨_, _, _, rfl⟩, _⟩ := performs.intended stored
      rcases permits.2.2.2.2 with absent | own
      · exact absurd absent (coherent.present earlier)
      · exact coherent.unique earlier own
    intro first second requestId left right
    rw [performs.journal] at left right
    rcases intended_append.mp left with earlier | ⟨own, storing⟩
    · rcases intended_append.mp right with other | ⟨own, storing⟩
      · exact coherent.unique earlier other
      · exact (stored earlier storing).trans own
    · rcases intended_append.mp right with earlier | ⟨same, _⟩
      · exact (own.symm.trans (stored earlier storing).symm)
      · exact own.symm.trans same

end Performs

def discipline (owner : Owner) (environment : Environment) :
    Discipline (owner.system environment) where
  guarantee caller held state next :=
    ∃ op answer, Performs environment caller op state answer next ∧
      Permits owner environment caller held state op
  lockInvariant := Coherent
  fresh index state := ∀ event ∈ State.journal state, event.caller.index ≠ index
  lockInvariant_of_unheld := by
    rintro caller state next coherent ⟨op, answer, performs, permits⟩
    exact performs.coherent permits coherent
  fresh_of_guarantee := by
    rintro index caller held state next fresh ⟨op, answer, performs, permits⟩ different event member
    rw [performs.journal] at member
    rcases List.mem_append.mp member with earlier | last
    · exact fresh event earlier
    · rw [List.mem_singleton.mp last]
      exact different

end CyreneReactor.PackageRuntime
